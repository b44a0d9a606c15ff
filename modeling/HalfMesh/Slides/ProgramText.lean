import Mathlib.Data.List.Forall2
import Mathlib.Tactic.Common

/-! The text that a playground sends to be run (`text` of `theme/static/play.js`): that of its code
element, without its buttons and line numbers. Blanks that were typed as non-breaking spaces become
plain ones, one in each element that is read, so some of them can be left. -/
namespace HalfMesh.Slides
set_option autoImplicit false
set_option maxHeartbeats 250000
set_option maxRecDepth 120000

def nbsp : Char := '\xA0'

/-- A node, by its `nodeType`. -/
inductive DomNode
  | element (tagName className : String) (childNodes : List DomNode)
  | text (nodeValue : List Char)
  | other

/-- The elements that `text` does not read. -/
def isSkipped (tagName className : String) : Bool :=
  decide (tagName = "BUTTON") || (decide (tagName = "SPAN") && decide (className = "number"))

def newLine (tagName : String) : List Char := if tagName ∈ ["DIV", "BR", "PRE"] then ['\n'] else []

mutual

/-- What a child node adds to `s`. -/
def DomNode.piece : DomNode → List Char
  | .element tagName className childNodes =>
    if isSkipped tagName className then [] else newLine tagName ++ (pieces childNodes).replace nbsp ' '
  | .text nodeValue => nodeValue
  | .other => []

/-- `s` at the end of the loop. -/
def pieces : List DomNode → List Char
  | [] => []
  | n :: childNodes => n.piece ++ pieces childNodes

end

/-- `text` of a node with these child nodes; a `replace` with a string is one of its first occurrence. -/
def text (childNodes : List DomNode) : List Char := (pieces childNodes).replace nbsp ' '

theorem piece_element (tagName className : String) (childNodes : List DomNode) :
    (DomNode.element tagName className childNodes).piece =
      if isSkipped tagName className then [] else newLine tagName ++ text childNodes := by
  rw [DomNode.piece, text]

/-! ## What is replaced -/

mutual

/-- The same with nothing replaced. -/
def DomNode.plain : DomNode → List Char
  | .element tagName className childNodes =>
    if isSkipped tagName className then [] else newLine tagName ++ plainText childNodes
  | .text nodeValue => nodeValue
  | .other => []

def plainText : List DomNode → List Char
  | [] => []
  | n :: childNodes => n.plain ++ plainText childNodes

end

/-- The same character, or a plain space for a non-breaking one. -/
def SameOrSpace (a b : Char) : Prop := b = a ∨ a = nbsp ∧ b = ' '

theorem sameOrSpace_refl (l : List Char) : List.Forall₂ SameOrSpace l l := List.forall₂_same.mpr fun _ _ => .inl rfl

theorem sameOrSpace_replace {l l' : List Char} (h : List.Forall₂ SameOrSpace l l') :
    List.Forall₂ SameOrSpace l (l'.replace nbsp ' ') := by
  induction h with
  | nil => exact .nil
  | cons hab hrest ih =>
    rename_i a b l l'
    by_cases hb : b = nbsp
    · subst hb
      rw [List.replace_cons_self]
      refine .cons (.inr ⟨?_, rfl⟩) hrest
      exact hab.elim Eq.symm fun h => absurd h.2 (by decide)
    · rw [List.replace_cons, beq_false_of_ne (Ne.symm hb)]
      exact .cons hab ih

mutual

theorem sameOrSpace_piece : ∀ n : DomNode, List.Forall₂ SameOrSpace n.plain n.piece
  | .element tagName className childNodes => by
    rw [DomNode.plain, DomNode.piece]
    split_ifs
    · exact .nil
    · exact List.rel_append (sameOrSpace_refl _) (sameOrSpace_replace (sameOrSpace_pieces childNodes))
  | .text nodeValue => sameOrSpace_refl nodeValue
  | .other => .nil

theorem sameOrSpace_pieces : ∀ childNodes, List.Forall₂ SameOrSpace (plainText childNodes) (pieces childNodes)
  | [] => .nil
  | n :: childNodes => by
    rw [plainText, pieces]
    exact List.rel_append (sameOrSpace_piece n) (sameOrSpace_pieces childNodes)

end

/-! ## What is left -/

/-- A part of what is read below an element: some of its elements, each with the one around it. With
the number of its elements and that of the non-breaking spaces in them and in the element itself. -/
inductive Part : List DomNode → ℕ → ℕ → Prop
  | nil : Part [] 0 0
  | text (nodeValue : List Char) {childNodes : List DomNode} {elements spaces : ℕ} (h : Part childNodes elements spaces) :
    Part (.text nodeValue :: childNodes) elements (nodeValue.count nbsp + spaces)
  | other {childNodes : List DomNode} {elements spaces : ℕ} (h : Part childNodes elements spaces) :
    Part (.other :: childNodes) elements spaces
  | without (tagName className : String) (inner : List DomNode) {childNodes : List DomNode} {elements spaces : ℕ}
    (h : Part childNodes elements spaces) : Part (.element tagName className inner :: childNodes) elements spaces
  | within {tagName className : String} (hread : isSkipped tagName className = false) {inner childNodes : List DomNode}
    {elements spaces elements' spaces' : ℕ} (hinner : Part inner elements spaces) (h : Part childNodes elements' spaces') :
    Part (.element tagName className inner :: childNodes) (elements + 1 + elements') (spaces + spaces')

theorem count_replace_self {a b : Char} (hne : b ≠ a) (l : List Char) : (l.replace a b).count a = l.count a - 1 := by
  induction l with
  | nil => rfl
  | cons c l ih =>
    by_cases hc : c = a
    · subst hc
      rw [List.replace_cons_self, List.count_cons_of_ne hne, List.count_cons_self, Nat.add_sub_cancel]
    · rw [List.replace_cons, beq_false_of_ne (Ne.symm hc)]
      simp only [List.count_cons_of_ne hc, ih]

theorem count_text (childNodes : List DomNode) : (text childNodes).count nbsp = (pieces childNodes).count nbsp - 1 :=
  count_replace_self (by decide) _

theorem count_newLine (tagName : String) : (newLine tagName).count nbsp = 0 := by
  unfold newLine
  split_ifs <;> decide

theorem count_element {tagName className : String} (hread : isSkipped tagName className = false)
    (inner childNodes : List DomNode) :
    (pieces (.element tagName className inner :: childNodes)).count nbsp =
      ((pieces inner).count nbsp - 1) + (pieces childNodes).count nbsp := by
  rw [pieces, piece_element, hread, if_neg Bool.false_ne_true, List.count_append, List.count_append, count_newLine,
    Nat.zero_add, count_text]

theorem count_skipped {tagName className : String} (hskip : isSkipped tagName className = true)
    (inner childNodes : List DomNode) :
    pieces (.element tagName className inner :: childNodes) = pieces childNodes := by
  rw [pieces, piece_element, hskip, if_pos rfl, List.nil_append]

/-- No part has more to replace than its elements do, beyond what is left of it. -/
theorem Part.le {childNodes : List DomNode} {elements spaces : ℕ} (h : Part childNodes elements spaces) :
    spaces ≤ elements + (pieces childNodes).count nbsp := by
  induction h with
  | nil => exact Nat.zero_le _
  | text nodeValue h ih =>
    rw [pieces, DomNode.piece, List.count_append]
    omega
  | other h ih =>
    rw [pieces, DomNode.piece, List.nil_append]
    exact ih
  | without tagName className inner h ih =>
    rw [pieces, List.count_append]
    omega
  | within hread hinner h ihinner ih =>
    rw [count_element hread]
    omega

mutual

theorem exists_part : ∀ childNodes, ∃ elements, Part childNodes elements (elements + (pieces childNodes).count nbsp)
  | [] => ⟨0, .nil⟩
  | n :: childNodes => by
    obtain ⟨elements', h⟩ := exists_part childNodes
    exact exists_part_cons n h

theorem exists_part_cons : ∀ (n : DomNode) {childNodes : List DomNode} {elements' : ℕ},
    Part childNodes elements' (elements' + (pieces childNodes).count nbsp) →
      ∃ elements, Part (n :: childNodes) elements (elements + (pieces (n :: childNodes)).count nbsp)
  | .element tagName className inner, childNodes, elements', h => by
    cases hread : isSkipped tagName className with
    | true =>
      rw [count_skipped hread]
      exact ⟨elements', .without tagName className inner h⟩
    | false =>
      rw [count_element hread]
      obtain ⟨elements, hinner⟩ := exists_part inner
      cases hcount : (pieces inner).count nbsp with
      | zero =>
        refine ⟨elements', ?_⟩
        rw [Nat.zero_sub, Nat.zero_add]
        exact .without tagName className inner h
      | succ k =>
        refine ⟨elements + 1 + elements', ?_⟩
        rw [hcount] at hinner
        have hwithin := Part.within hread hinner h
        have hspaces : elements + (k + 1) + (elements' + (pieces childNodes).count nbsp) =
            elements + 1 + elements' + (k + 1 - 1 + (pieces childNodes).count nbsp) := by omega
        exact hspaces ▸ hwithin
  | .text nodeValue, childNodes, elements', h => by
    refine ⟨elements', ?_⟩
    have htext := Part.text nodeValue h
    have hspaces : nodeValue.count nbsp + (elements' + (pieces childNodes).count nbsp) =
        elements' + (pieces (.text nodeValue :: childNodes)).count nbsp := by
      rw [pieces, DomNode.piece, List.count_append]
      omega
    exact hspaces ▸ htext
  | .other, childNodes, elements', h => by
    refine ⟨elements', ?_⟩
    rw [pieces, DomNode.piece, List.nil_append]
    exact .other h

end

/-- The text that is sent is that of the element, character by character, but for non-breaking spaces
that have become plain ones. At most `left` of them are left if and only if no part of the element has
more than `left` beyond the number of its own elements; none is left, in particular, if and only if no
part has more of them than elements. -/
theorem text_keeps (childNodes : List DomNode) : List.Forall₂ SameOrSpace (plainText childNodes) (text childNodes) ∧
    ∀ left, (text childNodes).count nbsp ≤ left ↔
      ∀ elements spaces, Part childNodes elements spaces → spaces ≤ elements + 1 + left := by
  refine ⟨sameOrSpace_replace (sameOrSpace_pieces childNodes), fun left => ?_⟩
  rw [count_text]
  constructor
  · intro hleft elements spaces hpart
    have hle := hpart.le
    omega
  · intro hparts
    obtain ⟨elements, hpart⟩ := exists_part childNodes
    have hle := hparts _ _ hpart
    omega

/-- Two blanks in one line of the program: its own element replaces one of them, and the one around it
the other; of three one would be left. -/
example : text [.element "SPAN" "" [.text ['\xA0', '\xA0', 'x']], .element "BUTTON" "run" [.text ['R']]] =
    [' ', ' ', 'x'] := by decide

end HalfMesh.Slides
