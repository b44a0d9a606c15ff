import HalfMesh.Slides.Console

/-! What the playgrounds of a window show. Each program is heard from its `start` on, in the order of
its messages, and only in its own playground; the page shows what a terminal would that every run,
every `start` and every `^L` of a text clears, and takes nothing that a program writes for markup but
a picture, which is a write that begins with `IMAGE:`. -/
namespace HalfMesh.Slides
open HalfMesh.Foundations
set_option autoImplicit false
set_option maxHeartbeats 250000
set_option maxRecDepth 120000

/-! ## A terminal -/

/-- `png` is the picture in base64. -/
inductive Cell
  | glyph (className : ClassName) (c : Char)
  | image (png : List Char)
  deriving DecidableEq

abbrev Terminal := List Cell

namespace Terminal

/-- Whose voice it is: the program's output, its errors, or the system that speaks of it. -/
def voice : Kind → ClassName
  | .stdout => .stdout
  | .stderr => .stderr
  | .start => .system
  | .ended => .system
  | .system => .system

/-- What is said, the end of a program with the reason if there is one. -/
def text (write : Write) : List Char :=
  match write.kind, write.body with
  | .ended, [] => "\nProgram exited.".toList
  | .ended, reason => "\nProgram exited: ".toList ++ reason
  | _, body => body

/-- The one thing that is not said in words. -/
def picture? : List Char → Option (List Char)
  | 'I' :: 'M' :: 'A' :: 'G' :: 'E' :: ':' :: png => some png
  | _ => none

/-- `^L` clears the screen. -/
def feed (className : ClassName) (t : Terminal) (c : Char) : Terminal :=
  if c = '\x0c' then [] else t ++ [.glyph className c]

/-- A `^L` in the data of a picture is no `^L`. -/
def accept (t : Terminal) (write : Write) : Terminal :=
  if write.kind = .start then []
  else
    match picture? (text write) with
    | some png => t ++ [.image png]
    | none => (shownText (text write)).foldl (feed (voice write.kind)) t

theorem text_eq_message (write : Write) : text write = write.message := by
  rcases write with ⟨kind, body⟩
  cases kind with
  | ended => cases body <;> rfl
  | start | stdout | stderr | system => rfl

theorem voice_eq_className (write : Write) : voice write.kind = write.className := by
  rcases write with ⟨kind, body⟩
  cases kind <;> rfl

theorem picture?_eq_some {l png : List Char} : picture? l = some png ↔ l = "IMAGE:".toList ++ png := by
  constructor
  · intro h
    unfold picture? at h
    split at h
    · obtain rfl := Option.some.inj h
      rfl
    · cases h
  · rintro rfl
    rfl

/-- The code finds the same pictures. -/
theorem isImage_iff {write : Write} : write.isImage = true ↔ ∃ png, picture? (text write) = some png := by
  rw [Write.isImage, decide_eq_true_iff, text_eq_message]
  simp only [picture?_eq_some]
  exact ⟨fun ⟨png, h⟩ => ⟨png, h.symm⟩, fun ⟨png, h⟩ => ⟨png, h.symm⟩⟩

theorem foldl_feed {className : ClassName} {l : List Char} (h : '\x0c' ∉ l) (t : Terminal) :
    l.foldl (feed className) t = t ++ l.map (.glyph className) := by
  induction l generalizing t with
  | nil => simp
  | cons c l ih =>
    rw [List.mem_cons, not_or] at h
    rw [List.foldl_cons, ih h.2, feed, if_neg (Ne.symm h.1)]
    simp

/-- What came before the last `^L` is gone. -/
theorem foldl_feed_clear {className : ClassName} (before : List Char) {after : List Char} (h : '\x0c' ∉ after)
    (t : Terminal) :
    (before ++ '\x0c' :: after).foldl (feed className) t = after.map (.glyph className) := by
  rw [List.foldl_append, List.foldl_cons, foldl_feed h]
  simp [feed]

end Terminal

/-! ## What is in the page -/

def namedCharacter (name : List Char) : Option Char :=
  if name = "amp".toList then some '&'
  else if name = "lt".toList then some '<'
  else if name = "gt".toList then some '>'
  else none

def pngUrl : List Char := "data:image/png;base64,".toList

/-- What a child of `outpre` is seen as; none if it is more than text or a picture. -/
def Node.cells : Node → Option Terminal
  | .img src => if pngUrl <+: src then some [.image (src.drop pngUrl.length)] else none
  | .span className innerHTML => (parseText namedCharacter innerHTML).map (List.map (.glyph className))

def cells : List Node → Option Terminal
  | [] => some []
  | n :: el => n.cells.bind fun a => (cells el).map (a ++ ·)

theorem cells_concat {el : List Node} {n : Node} {t a : Terminal} (h : cells el = some t) (hn : n.cells = some a) :
    cells (el ++ [n]) = some (t ++ a) := by
  induction el generalizing t with
  | nil =>
    obtain rfl : [] = t := Option.some.inj h
    simp [cells, hn]
  | cons m el ih =>
    obtain ⟨b, hm, hrest⟩ := Option.bind_eq_some_iff.mp h
    obtain ⟨u, hu, rfl⟩ := Option.map_eq_some_iff.mp hrest
    simp [cells, hm, ih hu]

theorem escapes_escape : Escapes namedCharacter (codeOf escapes) := by
  intro c
  by_cases hamp : c = '&'
  · subst hamp
    exact .inr ⟨"amp".toList, rfl, by simp, rfl, by simp⟩
  · by_cases hlt : c = '<'
    · subst hlt
      exact .inr ⟨"lt".toList, rfl, by simp, rfl, by simp⟩
    · by_cases hgt : c = '>'
      · subst hgt
        exact .inr ⟨"gt".toList, rfl, by simp, rfl, by simp⟩
      · exact .inl ⟨by simp [escapes, codeOf, hamp, hlt, hgt], hlt, hamp⟩

/-- The three replacements leave nothing in a text that is taken for markup. -/
theorem parseText_escapes (m : List Char) : parseText namedCharacter (replaceEach escapes m) = some (shownText m) := by
  rw [replaceEach_eq_flatMap (by decide)]
  exact parseText_flatMap escapes_escape m

/-- The last `^L` of a text. -/
theorem exists_last_clear {l : List Char} (h : '\x0c' ∈ l) :
    ∃ before after, l = before ++ '\x0c' :: after ∧ '\x0c' ∉ after := by
  obtain ⟨after, before, hl, hafter⟩ := List.eq_append_cons_of_mem (List.mem_reverse.mpr h)
  refine ⟨before.reverse, after.reverse, ?_, by simpa using hafter⟩
  rw [← List.reverse_reverse l, hl]
  simp

/-- The picture in the page is the picture of the write. -/
theorem cells_image {write : Write} {png : List Char} (h : Terminal.picture? (Terminal.text write) = some png) :
    (Node.img write.image).cells = some [.image png] := by
  rw [Terminal.text_eq_message] at h
  have hdata : write.message.drop 6 = png := by
    rw [Terminal.picture?_eq_some.mp h]
    exact List.drop_left' (by decide)
  have himage : write.image = pngUrl ++ png := congrArg (pngUrl ++ ·) hdata
  rw [Node.cells, himage, if_pos (List.prefix_append _ _), List.drop_left]

/-- A callback does to the page what the write does to the terminal. -/
theorem cells_playgroundOutput {el : List Node} {t : Terminal} (h : cells el = some t) (write : Write) :
    cells (playgroundOutput el write) = some (t.accept write) := by
  unfold playgroundOutput Terminal.accept
  by_cases hstart : write.kind = .start
  · simp [hstart, cells]
  · rw [if_neg hstart, if_neg hstart]
    by_cases himage : write.isImage = true
    · obtain ⟨png, hpng⟩ := Terminal.isImage_iff.mp himage
      rw [if_pos himage, hpng]
      exact cells_concat h (cells_image hpng)
    · have hnone : Terminal.picture? (Terminal.text write) = none := by
        rw [Option.eq_none_iff_forall_ne_some]
        exact fun png hpng => himage (Terminal.isImage_iff.mpr ⟨png, hpng⟩)
      rw [if_neg himage, hnone, Terminal.text_eq_message, Terminal.voice_eq_className]
      have hspan : ∀ m, (Node.span write.className (replaceEach escapes m)).cells =
          some ((shownText m).map (.glyph write.className)) := by
        intro m
        rw [Node.cells, parseText_escapes]
        rfl
      dsimp only
      by_cases hclear : '\x0c' ∈ write.message
      · obtain ⟨before, after, hm, hafter⟩ := exists_last_clear hclear
        have hsplit : write.message.splitOn '\x0c' = before.splitOn '\x0c' ++ [after] := by
          rw [hm, List.splitOn_append_cons_self, List.splitOn_eq_singleton hafter]
        have hlong : 1 < (before.splitOn '\x0c' ++ [after]).length := by
          have hne := List.length_pos_of_ne_nil (List.splitOn_ne_nil '\x0c' before)
          rw [List.length_append, List.length_singleton]
          omega
        rw [hsplit, hm, shownText_append_cons _ _ (by decide) (by decide) (by decide),
          Terminal.foldl_feed_clear _ (notMem_shownText hafter (by decide))]
        simp only [if_pos hlong, List.getLast?_concat, Option.getD_some]
        exact cells_concat (t := []) rfl (hspan after)
      · rw [List.splitOn_eq_singleton hclear, Terminal.foldl_feed (notMem_shownText hclear (by decide))]
        exact cells_concat h (hspan write.message)

example : cells (playgroundOutput [] { kind := .stdout, body := "old\x0ca<b&amp;\r\n".toList }) =
    some ("a<b&amp;\n".toList.map (.glyph .stdout)) := by decide

/-! ## What has happened -/

/-- A program is run in a playground; the server says something; the callback of a program is called. -/
inductive LogEntry
  | ran (index id : ℕ)
  | message (m : Message)
  | called (id output : ℕ) (write : Write)

namespace LogEntry

def isCall (n : ℕ) : LogEntry → Option Write
  | .called id _ write => if id = n then some write else none
  | _ => none

def isMessage (n : ℕ) : LogEntry → Option Write
  | .message m => if m.id = n then some m.write else none
  | _ => none

end LogEntry

/-- The calls of the callback of a program. -/
def callsOf (n : ℕ) (log : List LogEntry) : List Write := log.filterMap (LogEntry.isCall n)

/-- What the server says of a program. -/
def heardOf (n : ℕ) (log : List LogEntry) : List Write := log.filterMap (LogEntry.isMessage n)

@[simp] theorem callsOf_append (n : ℕ) (log log' : List LogEntry) : callsOf n (log ++ log') = callsOf n log ++ callsOf n log' :=
  List.filterMap_append
@[simp] theorem heardOf_append (n : ℕ) (log log' : List LogEntry) : heardOf n (log ++ log') = heardOf n log ++ heardOf n log' :=
  List.filterMap_append
@[simp] theorem callsOf_ran (n index id : ℕ) : callsOf n [.ran index id] = [] := rfl
@[simp] theorem heardOf_ran (n index id : ℕ) : heardOf n [.ran index id] = [] := rfl

/-- Entries made of the elements of a list, and read back where they are of the kind that is looked for. -/
theorem filterMap_map_if {α β : Type} {P : Prop} [Decidable P] (entry : α → β) (read : β → Option α)
    (h : ∀ a, read (entry a) = if P then some a else none) (l : List α) :
    (l.map entry).filterMap read = if P then l else [] := by
  induction l with
  | nil => simp
  | cons a l ih =>
    rw [List.map_cons, List.filterMap_cons, h, ih]
    split_ifs <;> rfl

theorem callsOf_message (n output : ℕ) (m : Message) (writes : List Write) :
    callsOf n (.message m :: writes.map (.called m.id output)) = if m.id = n then writes else [] :=
  filterMap_map_if (LogEntry.called m.id output) (LogEntry.isCall n) (fun _ => rfl) writes

theorem heardOf_message (n output : ℕ) (m : Message) (writes : List Write) :
    heardOf n (.message m :: writes.map (.called m.id output)) = if m.id = n then [m.write] else [] := by
  have hnone : heardOf n (writes.map (.called m.id output)) = [] := by
    simp [heardOf, LogEntry.isMessage]
  show heardOf n ([.message m] ++ writes.map (.called m.id output)) = _
  rw [heardOf_append, hnone, List.append_nil]
  by_cases hn : m.id = n <;> simp [heardOf, LogEntry.isMessage, hn]

/-- What happens, as a terminal at one playground takes it. -/
def Terminal.hear (index : ℕ) (t : Terminal) : LogEntry → Terminal
  | .ran index' _ => if index' = index then [] else t
  | .message _ => t
  | .called _ output write => if output = index then t.accept write else t

def Terminal.screen (index : ℕ) (log : List LogEntry) : Terminal := log.foldl (Terminal.hear index) []

def watchPage (s : Page) (a : Page.Action) (_ : Page) (log : List LogEntry) : List LogEntry :=
  log ++ match a with
    | .request index (.run _) => [.ran index s.transport.id]
    | .request _ .kill => []
    | .message m =>
      match s.transport.onmessage m with
      | some (_, output, writes) => .message m :: writes.map (.called m.id output)
      | none => []

/-- A page, and what has happened in it. -/
def Logged (s : Page) (log : List LogEntry) : Prop :=
  Reach (observe Page.step watchPage) anyStep (Page.start, []) (s, log)

structure Kept (s : Page) (log : List LogEntry) : Prop where
  fresh : ∀ n, s.transport.outputs n = none ↔ s.transport.id ≤ n
  ran : ∀ n i, s.transport.outputs n = some i ↔ .ran i n ∈ log
  own : ∀ n i write, .called n i write ∈ log → .ran i n ∈ log
  started : ∀ n, s.transport.started n = true →
    callsOf n log = { kind := .start, body := [] } :: heardOf n log ∧ n < s.transport.id
  silent : ∀ n, s.transport.started n = false → callsOf n log = [] ∧ heardOf n log = []
  shows : ∀ i, cells (s.outpre i) = some (Terminal.screen i log)

theorem kept_start : Kept Page.start [] where
  fresh n := by simp [Page.start, SocketTransport.start]
  ran n i := by simp [Page.start, SocketTransport.start]
  own n i write h := by simp at h
  started n h := by simp [Page.start, SocketTransport.start] at h
  silent n _ := ⟨rfl, rfl⟩
  shows i := rfl

variable {s s' : Page} {log : List LogEntry}

theorem Kept.run (h : Kept s log) (index : ℕ) (race : Bool) :
    Kept { s with
      transport := s.transport.run index race
      running := Function.update s.running index (some s.transport.id)
      outpre := Function.update s.outpre index [] } (log ++ [.ran index s.transport.id]) where
  fresh n := by
    simp only [SocketTransport.run, Function.update_apply]
    split_ifs with hn
    · simp [hn]
    · rw [h.fresh]
      omega
  ran n i := by
    simp only [SocketTransport.run, Function.update_apply, List.mem_append, List.mem_singleton, LogEntry.ran.injEq]
    split_ifs with hn
    · subst hn
      have hold : LogEntry.ran i s.transport.id ∉ log := by
        rw [← h.ran, (h.fresh _).mpr le_rfl]
        simp
      simp [hold, eq_comm]
    · simp [hn, h.ran]
  own n i write hcall := by
    simp only [List.mem_append, List.mem_singleton, reduceCtorEq, or_false] at hcall ⊢
    exact .inl (h.own n i write hcall)
  started n hn := by
    obtain ⟨hcalls, hlt⟩ := h.started n hn
    refine ⟨?_, Nat.lt_succ_of_lt hlt⟩
    simpa using hcalls
  silent n hn := by
    simpa using h.silent n hn
  shows i := by
    simp only [Function.update_apply, Terminal.screen, List.foldl_append, List.foldl_cons, List.foldl_nil, Terminal.hear]
    split_ifs with hi hi' hi'
    · rfl
    · exact absurd hi.symm hi'
    · exact absurd hi'.symm hi
    · exact h.shows i

theorem cells_foldl {el : List Node} {t : Terminal} (h : cells el = some t) (writes : List Write) :
    cells (writes.foldl playgroundOutput el) = some (writes.foldl Terminal.accept t) := by
  induction writes generalizing el t with
  | nil => exact h
  | cons write writes ih => exact ih (cells_playgroundOutput h write)

theorem hear_calls (i n output : ℕ) (writes : List Write) (t : Terminal) :
    (writes.map (.called n output)).foldl (Terminal.hear i) t =
      if output = i then writes.foldl Terminal.accept t else t := by
  induction writes generalizing t with
  | nil => simp
  | cons write writes ih =>
    rw [List.map_cons, List.foldl_cons, ih, Terminal.hear]
    split_ifs <;> rfl

/-- A callback writes into the page. -/
theorem cells_update {outpre : ℕ → List Node} {screen : ℕ → Terminal} (h : ∀ i, cells (outpre i) = some (screen i))
    (output : ℕ) (writes : List Write) (i : ℕ) :
    cells (Function.update outpre output (writes.foldl playgroundOutput (outpre output)) i) =
      some (if output = i then writes.foldl Terminal.accept (screen i) else screen i) := by
  rw [Function.update_apply]
  by_cases hi : i = output
  · subst hi
    rw [if_pos rfl, if_pos rfl]
    exact cells_foldl (h i) writes
  · rw [if_neg hi, if_neg (Ne.symm hi)]
    exact h i

theorem onmessage_eq {t t' : SocketTransport} {m : Message} {output : ℕ} {writes : List Write}
    (h : t.onmessage m = some (t', output, writes)) : t.outputs m.id = some output ∧ t'.outputs = t.outputs ∧ t'.id = t.id ∧
      t'.started = Function.update t.started m.id true ∧
      writes = (if t.started m.id then [] else [{ kind := .start, body := [] }]) ++ [m.write] := by
  obtain ⟨output', houtput, hx⟩ := Option.map_eq_some_iff.mp h
  by_cases hstarted : t.started m.id = true
  · rw [if_pos hstarted] at hx
    obtain ⟨rfl, rfl, rfl⟩ := hx
    refine ⟨houtput, rfl, rfl, ?_, by rw [if_pos hstarted, List.nil_append]⟩
    rw [← hstarted, Function.update_eq_self]
  · rw [if_neg hstarted] at hx
    obtain ⟨rfl, rfl, rfl⟩ := hx
    exact ⟨houtput, rfl, rfl, rfl, by rw [if_neg hstarted]; rfl⟩

/-- After its message the program has been heard. -/
theorem Kept.calls (h : Kept s log) {m : Message} {writes : List Write}
    (hwrites : writes = (if s.transport.started m.id then [] else [{ kind := .start, body := [] }]) ++ [m.write]) (output : ℕ) :
    callsOf m.id (log ++ .message m :: writes.map (.called m.id output)) =
      { kind := .start, body := [] } :: (heardOf m.id log ++ [m.write]) := by
  rw [callsOf_append, callsOf_message, if_pos rfl, hwrites]
  cases hstarted : s.transport.started m.id with
  | true =>
    rw [(h.started m.id hstarted).1]
    rfl
  | false =>
    obtain ⟨hcalls, hheard⟩ := h.silent m.id hstarted
    rw [hcalls, hheard]
    rfl

theorem Kept.message (h : Kept s log) {m : Message} {t : SocketTransport} {output : ℕ} {writes : List Write}
    (hm : s.transport.onmessage m = some (t, output, writes)) :
    Kept { s with
      transport := t
      outpre := Function.update s.outpre output (writes.foldl playgroundOutput (s.outpre output)) }
      (log ++ .message m :: writes.map (.called m.id output)) := by
  obtain ⟨houtput, houtputs, hid, hstarted, hwrites⟩ := onmessage_eq hm
  have hlt : m.id < s.transport.id := by
    by_contra hge
    rw [(h.fresh _).mpr (not_lt.mp hge)] at houtput
    cases houtput
  have hran : ∀ i n, .ran i n ∈ log ++ .message m :: writes.map (.called m.id output) ↔ .ran i n ∈ log := by
    simp
  have hother : ∀ n, n ≠ m.id → callsOf n (log ++ .message m :: writes.map (.called m.id output)) = callsOf n log ∧
      heardOf n (log ++ .message m :: writes.map (.called m.id output)) = heardOf n log := by
    intro n hn
    rw [callsOf_append, heardOf_append, callsOf_message, heardOf_message, if_neg hn.symm, if_neg hn.symm]
    exact ⟨List.append_nil _, List.append_nil _⟩
  refine ⟨fun n => ?_, fun n i => ?_, fun n i write hcall => ?_, fun n hn => ?_, fun n hn => ?_, fun i => ?_⟩
  · rw [houtputs, hid]
    exact h.fresh n
  · rw [houtputs, hran]
    exact h.ran n i
  · rw [hran]
    simp only [List.mem_append, List.mem_cons, reduceCtorEq, false_or, List.mem_map, LogEntry.called.injEq] at hcall
    rcases hcall with hold | ⟨_, _, rfl, rfl, _⟩
    · exact h.own n i write hold
    · exact (h.ran m.id output).mp houtput
  · rw [hid]
    by_cases hself : n = m.id
    · subst hself
      rw [h.calls hwrites, heardOf_append, heardOf_message, if_pos rfl]
      exact ⟨rfl, hlt⟩
    · rw [hstarted, Function.update_of_ne hself] at hn
      rw [(hother n hself).1, (hother n hself).2]
      exact h.started n hn
  · have hself : n ≠ m.id := fun hself => by
      rw [hstarted, hself, Function.update_self] at hn
      cases hn
    rw [hstarted, Function.update_of_ne hself] at hn
    rw [(hother n hself).1, (hother n hself).2]
    exact h.silent n hn
  · rw [Terminal.screen, List.foldl_append, List.foldl_cons, hear_calls]
    exact cells_update h.shows output writes i

theorem kept_step {a : Page.Action} (h : Kept s log) (hs : s.step a = some s') :
    Kept s' (watchPage s a s' log) := by
  cases a with
  | request index r =>
    cases r with
    | run race =>
      obtain rfl := Option.some.inj hs
      exact h.run index race
    | kill =>
      obtain ⟨thisID, _, rfl⟩ := Option.map_eq_some_iff.mp hs
      rw [watchPage, List.append_nil]
      exact ⟨h.fresh, h.ran, h.own, h.started, h.silent, h.shows⟩
  | message m =>
    obtain rfl := Option.some.inj hs
    cases hm : s.transport.onmessage m with
    | some x =>
      simp only [Page.onmessage, watchPage, hm]
      exact h.message hm
    | none =>
      simp only [Page.onmessage, watchPage, hm, List.append_nil]
      exact ⟨h.fresh, h.ran, h.own, h.started, h.silent, h.shows⟩

theorem kept_of_logged (h : Logged s log) : Kept s log :=
  Reach.invariant (fun x => Kept x.1 x.2) kept_start (fun x a y _ hi _ hs => by
    obtain ⟨hstep, hlog⟩ := observe_eq_some.mp hs
    rw [hlog]
    exact kept_step hi hstep) h

/-- Two programs at once, the second with a picture; then the first one is run again while the end of
its first run is under way. -/
def demoPageActions : List Page.Action :=
  [.request 0 (.run false), .message { id := 0, write := { kind := .stdout, body := "a<b".toList } },
    .request 1 (.run true), .message { id := 1, write := { kind := .stderr, body := "old\x0cnew".toList } },
    .message { id := 1, write := { kind := .stdout, body := "IMAGE:iVBO\x0cRw0K".toList } },
    .request 0 .kill, .request 0 (.run false), .message { id := 0, write := { kind := .ended, body := "killed".toList } },
    .message { id := 7, write := { kind := .stdout, body := [] } }]

theorem demoPageActions_enabled : (runActions (observe Page.step watchPage) (Page.start, []) demoPageActions).isSome := by
  decide

def demoPage : Page × List LogEntry :=
  (runActions (observe Page.step watchPage) (Page.start, []) demoPageActions).get demoPageActions_enabled

theorem demoPage_logged : Logged demoPage.1 demoPage.2 := Reach.of_runActions (t := demoPage) (Option.some_get _).symm

/-- In every run of the playgrounds of a window, whatever the server says and when: the callback of a
program is called with `start` first and then with all that the server says of the program, in that
order, or not at all if it says nothing; only a message of a program that has not been run ends in a
`TypeError`. -/
theorem calls_in_order (s : Page) (log : List LogEntry) (h : Logged s log) :
    (∀ n, (callsOf n log = [] ∧ heardOf n log = []) ∨
      callsOf n log = { kind := .start, body := [] } :: heardOf n log) ∧
    ∀ m, s.transport.onmessage m = none ↔ ∀ i, .ran i m.id ∉ log := by
  have hkept := kept_of_logged h
  refine ⟨fun n => ?_, fun m => ?_⟩
  · cases hstarted : s.transport.started n with
    | true => exact .inr (hkept.started n hstarted).1
    | false => exact .inl (hkept.silent n hstarted)
  · rw [SocketTransport.onmessage, Option.map_eq_none_iff, Option.eq_none_iff_forall_ne_some]
    exact forall_congr' fun i => not_congr (hkept.ran m.id i)

theorem calls_in_order_demo :
    (∀ n, (callsOf n demoPage.2 = [] ∧ heardOf n demoPage.2 = []) ∨
      callsOf n demoPage.2 = { kind := .start, body := [] } :: heardOf n demoPage.2) ∧
    ∀ m, demoPage.1.transport.onmessage m = none ↔ ∀ i, .ran i m.id ∉ demoPage.2 :=
  calls_in_order demoPage.1 demoPage.2 demoPage_logged

/-! ## Pictures -/

theorem image_of_foldl_feed {className : ClassName} {l : List Char} {t : Terminal} {png : List Char}
    (h : .image png ∈ l.foldl (Terminal.feed className) t) : .image png ∈ t := by
  induction l generalizing t with
  | nil => exact h
  | cons c l ih =>
    have hfed := ih h
    unfold Terminal.feed at hfed
    split_ifs at hfed
    · exact absurd hfed List.not_mem_nil
    · simpa using hfed

/-- A picture comes from a write that begins with `IMAGE:`. -/
theorem image_of_accept {t : Terminal} {write : Write} {png : List Char} (h : .image png ∈ t.accept write) :
    .image png ∈ t ∨ Terminal.text write = "IMAGE:".toList ++ png := by
  unfold Terminal.accept at h
  split at h
  · exact absurd h List.not_mem_nil
  · split at h
    · next png' hpng =>
      rcases List.mem_append.mp h with hold | hnew
      · exact .inl hold
      · rw [List.mem_singleton, Cell.image.injEq] at hnew
        exact .inr (Terminal.picture?_eq_some.mp (hnew ▸ hpng))
    · exact .inl (image_of_foldl_feed h)

theorem image_of_screen {i : ℕ} {log : List LogEntry} {png : List Char} (h : .image png ∈ Terminal.screen i log) :
    ∃ n write, .called n i write ∈ log ∧ Terminal.text write = "IMAGE:".toList ++ png := by
  induction log using List.reverseRecOn with
  | nil => exact absurd h List.not_mem_nil
  | append_singleton log e ih =>
    have hold : .image png ∈ Terminal.screen i log →
        ∃ n write, .called n i write ∈ log ++ [e] ∧ Terminal.text write = "IMAGE:".toList ++ png := by
      intro hmem
      obtain ⟨n, write, hcall, htext⟩ := ih hmem
      exact ⟨n, write, List.mem_append_left _ hcall, htext⟩
    rw [Terminal.screen, List.foldl_append, List.foldl_cons, List.foldl_nil] at h
    cases e with
    | ran index id =>
      rw [Terminal.hear] at h
      split_ifs at h
      · exact absurd h List.not_mem_nil
      · exact hold h
    | message m => exact hold h
    | called n output write =>
      rw [Terminal.hear] at h
      split_ifs at h with hi
      · subst hi
        rcases image_of_accept h with hmem | htext
        · exact hold hmem
        · exact ⟨n, write, by simp, htext⟩
      · exact hold h

theorem image_of_img {el : List Node} {t : Terminal} {src : List Char} (h : cells el = some t) (hsrc : .img src ∈ el) :
    ∃ png, src = pngUrl ++ png ∧ .image png ∈ t := by
  induction el generalizing t with
  | nil => exact absurd hsrc List.not_mem_nil
  | cons n el ih =>
    obtain ⟨a, hn, hrest⟩ := Option.bind_eq_some_iff.mp h
    obtain ⟨u, hu, rfl⟩ := Option.map_eq_some_iff.mp hrest
    rcases List.mem_cons.mp hsrc with rfl | hin
    · obtain ⟨⟨png, rfl⟩, ha⟩ := Option.ite_none_right_eq_some.mp hn
      rw [List.drop_left] at ha
      obtain rfl := Option.some.inj ha
      exact ⟨png, rfl, by simp⟩
    · obtain ⟨png, hpng, hmem⟩ := ih hu hin
      exact ⟨png, hpng, List.mem_append_right _ hmem⟩

/-- At every moment each playground shows what a terminal would that is cleared by every run of the
playground, by every `start` and by every `^L` of a text, and that is told what the server says of the
programs run in this playground, and of no others. All of it is text but the pictures, and these come
from writes that begin with `IMAGE:`. -/
theorem console_shows (s : Page) (log : List LogEntry) (h : Logged s log) :
    (∀ i, cells (s.outpre i) = some (Terminal.screen i log)) ∧
    (∀ n i write, .called n i write ∈ log → ∀ i', .ran i' n ∈ log ↔ i' = i) ∧
    ∀ i src, .img src ∈ s.outpre i → ∃ n write png, .called n i write ∈ log ∧
      Terminal.text write = "IMAGE:".toList ++ png ∧ src = pngUrl ++ png := by
  have hkept := kept_of_logged h
  refine ⟨hkept.shows, fun n i write hcall i' => ?_, fun i src hsrc => ?_⟩
  rotate_left
  · obtain ⟨png, hpng, hmem⟩ := image_of_img (hkept.shows i) hsrc
    obtain ⟨n, write, hcall, htext⟩ := image_of_screen hmem
    exact ⟨n, write, png, hcall, htext, hpng⟩
  have hran := (hkept.ran n i).mpr (hkept.own n i write hcall)
  rw [← hkept.ran, hran, Option.some.injEq]
  exact eq_comm

theorem console_shows_demo :
    (∀ i, cells (demoPage.1.outpre i) = some (Terminal.screen i demoPage.2)) ∧
    (∀ n i write, .called n i write ∈ demoPage.2 → ∀ i', .ran i' n ∈ demoPage.2 ↔ i' = i) ∧
    ∀ i src, .img src ∈ demoPage.1.outpre i → ∃ n write png, .called n i write ∈ demoPage.2 ∧
      Terminal.text write = "IMAGE:".toList ++ png ∧ src = pngUrl ++ png :=
  console_shows demoPage.1 demoPage.2 demoPage_logged

end HalfMesh.Slides
