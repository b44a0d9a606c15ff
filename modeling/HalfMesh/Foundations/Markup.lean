import Mathlib.Data.List.Basic
import Mathlib.Tactic.Common

/-! Text as markup. `replaceEach` puts words in the place of characters, one character after the other;
`parseText` is what a parser makes of a fragment that is nothing but text and named references:
newlines are normalized and NUL is dropped, the references are decoded, and anything that might be
more than text is refused. Characters replaced by references that name them are read as they were. -/
namespace HalfMesh.Foundations
set_option autoImplicit false
set_option maxHeartbeats 250000
set_option maxRecDepth 120000

/-! ## Replacing -/

section Replace
variable {α : Type} [DecidableEq α]

/-- `l.replace(/c/g, w)`. -/
def replaceAll (c : α) (w : List α) (l : List α) : List α := l.flatMap fun a => if a = c then w else [a]

/-- Some replacements, one after the other. -/
def replaceEach (table : List (α × List α)) (l : List α) : List α :=
  table.foldl (fun l x => replaceAll x.1 x.2 l) l

/-- What the table has for a character. -/
def codeOf : List (α × List α) → α → List α
  | [], a => [a]
  | x :: table, a => if a = x.1 then x.2 else codeOf table a

theorem codeOf_of_notMem {table : List (α × List α)} {a : α} (h : ∀ x ∈ table, x.1 ≠ a) : codeOf table a = [a] := by
  induction table with
  | nil => rfl
  | cons x table ih =>
    rw [codeOf, if_neg (h x (by simp)).symm]
    exact ih fun y hy => h y (by simp [hy])

theorem flatMap_codeOf {table : List (α × List α)} {l : List α} (h : ∀ x ∈ table, x.1 ∉ l) :
    l.flatMap (codeOf table) = l := by
  induction l with
  | nil => rfl
  | cons a l ih =>
    have ha : codeOf table a = [a] := codeOf_of_notMem fun x hx hxa => h x hx (by simp [hxa])
    rw [List.flatMap_cons, ha, ih fun x hx hmem => h x hx (by simp [hmem])]
    rfl

/-- If no word has a character that is still to be replaced, the replacements are one substitution. -/
theorem replaceEach_eq_flatMap {table : List (α × List α)} (h : table.Pairwise fun x y => y.1 ∉ x.2) (l : List α) :
    replaceEach table l = l.flatMap (codeOf table) := by
  induction table generalizing l with
  | nil => simp [replaceEach, codeOf]
  | cons x table ih =>
    obtain ⟨hx, htable⟩ := List.pairwise_cons.mp h
    show replaceEach table (replaceAll x.1 x.2 l) = _
    rw [ih htable, replaceAll, List.flatMap_assoc]
    congr 1
    funext a
    by_cases ha : a = x.1
    · simp [ha, codeOf, flatMap_codeOf hx]
    · simp [ha, codeOf]

end Replace

/-! ## Newlines -/

/-- A carriage return is a newline, with the line feed after it if there is one. -/
def newlines : Bool → List Char → List Char
  | _, [] => []
  | afterCR, c :: l =>
    if c = '\r' then '\n' :: newlines true l
    else if c = '\n' ∧ afterCR then newlines false l
    else c :: newlines false l

theorem newlines_cons (afterCR : Bool) {c : Char} (l : List Char) (hcr : c ≠ '\r') (hlf : c ≠ '\n') :
    newlines afterCR (c :: l) = c :: newlines false l := by
  simp [newlines, hcr, hlf]

theorem newlines_append (w l : List Char) (afterCR : Bool) (hne : w ≠ []) (h : ∀ c ∈ w, c ≠ '\r' ∧ c ≠ '\n') :
    newlines afterCR (w ++ l) = w ++ newlines false l := by
  induction w generalizing afterCR with
  | nil => exact absurd rfl hne
  | cons c w ih =>
    obtain ⟨hcr, hlf⟩ := h c (by simp)
    rw [List.cons_append, newlines_cons _ _ hcr hlf]
    by_cases hw : w = []
    · rw [hw, List.nil_append]
      rfl
    · rw [ih false hw fun a ha => h a (by simp [ha])]
      rfl

/-- Before a character that is no newline the text is as if it ended there. -/
theorem newlines_append_cons (w l : List Char) (afterCR : Bool) {c : Char} (hcr : c ≠ '\r') (hlf : c ≠ '\n') :
    newlines afterCR (w ++ c :: l) = newlines afterCR w ++ c :: newlines false l := by
  induction w generalizing afterCR with
  | nil => simp [newlines, hcr, hlf]
  | cons a w ih =>
    rw [List.cons_append, newlines, newlines]
    split_ifs <;> simp [ih]

theorem mem_of_mem_newlines {l : List Char} {afterCR : Bool} {c : Char} (h : c ∈ newlines afterCR l) (hlf : c ≠ '\n') :
    c ∈ l := by
  induction l generalizing afterCR with
  | nil => simp [newlines] at h
  | cons a l ih =>
    rw [newlines] at h
    split_ifs at h
    · rw [List.mem_cons, or_iff_right hlf] at h
      exact List.mem_cons_of_mem _ (ih h)
    · exact List.mem_cons_of_mem _ (ih h)
    · rw [List.mem_cons] at h
      exact List.mem_cons.mpr (h.imp_right ih)

/-! ## References -/

/-- The text of a fragment, from inside a reference if one is open; none if it may be more than text. -/
def decode (named : List Char → Option Char) : Option (List Char) → List Char → Option (List Char)
  | none, [] => some []
  | some _, [] => none
  | none, c :: l =>
    if c = '<' then none
    else if c = '&' then decode named (some []) l
    else if c = '\x00' then decode named none l
    else (decode named none l).map (c :: ·)
  | some name, c :: l =>
    if c = ';' then (named name).bind fun r => (decode named none l).map (r :: ·)
    else decode named (some (name ++ [c])) l

variable {named : List Char → Option Char}

/-- `<`, `&` and NUL are more than the text they stand for. -/
def isPlain (c : Char) : Bool := c != '<' && c != '&' && c != '\x00'

theorem decode_plain {c : Char} (h : isPlain c = true) (l : List Char) :
    decode named none (c :: l) = (decode named none l).map (c :: ·) := by
  simp only [isPlain, Bool.and_eq_true, bne_iff_ne] at h
  simp [decode, h]

theorem decode_name (name done l : List Char) (h : ';' ∉ name) :
    decode named (some done) (name ++ ';' :: l) =
      (named (done ++ name)).bind fun r => (decode named none l).map (r :: ·) := by
  induction name generalizing done with
  | nil => simp [decode]
  | cons c name ih =>
    rw [List.mem_cons, not_or] at h
    rw [List.cons_append, decode, if_neg (Ne.symm h.1), ih _ h.2]
    simp

theorem decode_reference {name : List Char} {r : Char} (h : ';' ∉ name) (hr : named name = some r) (l : List Char) :
    decode named none ('&' :: name ++ ';' :: l) = (decode named none l).map (r :: ·) := by
  rw [List.cons_append, decode, if_neg (by decide), if_pos rfl, decode_name _ _ _ h, List.nil_append, hr]
  rfl

/-! ## Round trip -/

/-- What a parser makes of a fragment of text. -/
def parseText (named : List Char → Option Char) (l : List Char) : Option (List Char) :=
  decode named none (newlines false l)

/-- The text that is shown for it, if nothing in it is taken for markup. -/
def shownText (l : List Char) : List Char := (newlines false l).filter (· ≠ '\x00')

theorem notMem_shownText {l : List Char} {c : Char} (h : c ∉ l) (hlf : c ≠ '\n') : c ∉ shownText l := fun hmem =>
  h (mem_of_mem_newlines (List.mem_filter.mp hmem).1 hlf)

/-- Before a character that is shown as it is, the text is shown as if it ended there. -/
theorem shownText_append_cons (w l : List Char) {c : Char} (hcr : c ≠ '\r') (hlf : c ≠ '\n') (hnul : c ≠ '\x00') :
    shownText (w ++ c :: l) = shownText w ++ c :: shownText l := by
  rw [shownText, newlines_append_cons _ _ _ hcr hlf]
  simp [shownText, hnul]

/-- Each character is written as itself or as a reference that names it. -/
def Escapes (named : List Char → Option Char) (code : Char → List Char) : Prop :=
  ∀ c, (code c = [c] ∧ c ≠ '<' ∧ c ≠ '&') ∨
    ∃ name, code c = '&' :: name ++ [';'] ∧ ';' ∉ name ∧ named name = some c ∧
      c ≠ '\r' ∧ c ≠ '\n' ∧ c ≠ '\x00' ∧ ∀ a ∈ name, a ≠ '\r' ∧ a ≠ '\n'

theorem newlines_flatMap {code : Char → List Char} (h : Escapes named code) (l : List Char) (afterCR : Bool) :
    newlines afterCR (l.flatMap code) = (newlines afterCR l).flatMap code := by
  have hself : ∀ c, c = '\r' ∨ c = '\n' → code c = [c] := by
    intro c hc
    obtain ⟨hcode, _⟩ | ⟨name, _, _, _, hcr, hlf, _⟩ := h c
    · exact hcode
    · exact absurd hc (by simp [hcr, hlf])
  induction l generalizing afterCR with
  | nil => simp [newlines]
  | cons c l ih =>
    rw [List.flatMap_cons]
    by_cases hc : c = '\r' ∨ c = '\n'
    · rw [hself c hc, List.singleton_append, newlines, newlines]
      have hlf := hself '\n' (.inr rfl)
      split_ifs with hcr hskip
      · rw [ih, List.flatMap_cons, hlf]
        rfl
      · exact ih false
      · rw [ih, List.flatMap_cons, hself c hc]
        rfl
    · rw [not_or] at hc
      have hword : code c ≠ [] ∧ ∀ a ∈ code c, a ≠ '\r' ∧ a ≠ '\n' := by
        obtain ⟨hcode, _⟩ | ⟨name, hcode, _, _, _, _, _, hname⟩ := h c
        · simp [hcode, hc]
        · refine ⟨by simp [hcode], fun a ha => ?_⟩
          rw [hcode] at ha
          simp only [List.cons_append, List.mem_cons, List.mem_append, List.not_mem_nil, or_false] at ha
          rcases ha with rfl | ha | rfl
          · decide
          · exact hname a ha
          · decide
      rw [newlines_append _ _ _ hword.1 hword.2, newlines_cons _ _ hc.1 hc.2, List.flatMap_cons, ih]

theorem decode_flatMap {code : Char → List Char} (h : Escapes named code) (l : List Char) :
    decode named none (l.flatMap code) = some (l.filter (· ≠ '\x00')) := by
  induction l with
  | nil => rfl
  | cons c l ih =>
    rw [List.flatMap_cons]
    obtain ⟨hcode, hlt, hamp⟩ | ⟨name, hcode, hsemi, hnamed, _, _, hnul, _⟩ := h c
    · rw [hcode, List.singleton_append]
      by_cases hnul : c = '\x00'
      · rw [decode, if_neg hlt, if_neg hamp, if_pos hnul, ih]
        simp [hnul]
      · rw [decode_plain (by simp [isPlain, hlt, hamp, hnul]), ih]
        simp [hnul]
    · rw [hcode, List.append_assoc, List.singleton_append, decode_reference hsemi hnamed, ih]
      simp [hnul]

/-- What is written so is read as text, and as the text it was. -/
theorem parseText_flatMap {code : Char → List Char} (h : Escapes named code) (l : List Char) :
    parseText named (l.flatMap code) = some (shownText l) := by
  rw [parseText, newlines_flatMap h, decode_flatMap h]
  rfl

end HalfMesh.Foundations
