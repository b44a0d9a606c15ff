import HalfMesh.Slides.Playback

/-! The playgrounds of a window whose programs are played back. Of the programs run in a playground
only the last one is heard from then on. Two answers are not held against it: an error, and what
`/vet` says; a program that has been replaced when one of them comes still writes. -/
namespace HalfMesh.Slides
open HalfMesh.Foundations
open scoped List
set_option autoImplicit false
set_option maxHeartbeats 250000
set_option maxRecDepth 120000

/-- The log as the terminals of the playgrounds take it; `Kill` writes as the program does. -/
def PlayEntry.heard : PlayEntry → Option LogEntry
  | .ran index cur => some (.ran index cur)
  | .reply _ _ => none
  | .called cur output write => some (.called cur output write)
  | .killed cur output => some (.called cur output killedWrite)

def heardEntries (log : List PlayEntry) : List LogEntry := log.filterMap PlayEntry.heard

@[simp] theorem heardEntries_append (log log' : List PlayEntry) :
    heardEntries (log ++ log') = heardEntries log ++ heardEntries log' := List.filterMap_append

theorem heardEntries_called (cur output : ℕ) (writes : List Write) :
    heardEntries (writes.map (.called cur output)) = writes.map (.called cur output) := by
  induction writes with
  | nil => rfl
  | cons write writes ih => exact congrArg (LogEntry.called cur output write :: ·) ih

/-- The answers that are taken whether or not another program has been run. -/
def Reply.unchecked : Reply → Bool
  | .failed => true
  | .vetted _ => true
  | _ => false

/-- A program was answered so after another one had been run in its playground. -/
def Late (i m : ℕ) (log : List PlayEntry) : Prop :=
  ∃ n reply, m < n ∧ reply.unchecked = true ∧ [.ran i n, .reply m reply] <+ log

theorem Late.append {i m : ℕ} {log : List PlayEntry} (h : Late i m log) (new : List PlayEntry) : Late i m (log ++ new) := by
  obtain ⟨n, reply, hlt, hreply, hsub⟩ := h
  exact ⟨n, reply, hlt, hreply, hsub.trans (List.sublist_append_left log new)⟩

/-- What is called belongs to the last program of its playground, or to a late one. -/
def Heeds (log : List PlayEntry) (x y : PlayEntry) : Prop :=
  ∀ i n m, x = .ran i n → ((∃ write, y = .called m i write) → n ≤ m ∨ Late i m log) ∧ (y = .killed m i → n ≤ m)

/-- The state of a page whose programs are played back. -/
structure Current (s : HTTPPage) (log : List PlayEntry) : Prop where
  newest : ∀ i n, s.running i = some n ↔ .ran i n ∈ log ∧ ∀ m, .ran i m ∈ log → m ≤ n
  playing : ∀ m r, s.transport.runs m = some r → (∃ e events data, r.awaited = .timeout e events data) →
    s.running r.output = some m ∨ Late r.output m log
  heeds : log.Pairwise (Heeds log)
  shows : ∀ i, cells (s.outpre i) = some (Terminal.screen i (heardEntries log))

section
variable {enableVet : Bool} {s s' : HTTPPage} {log new : List PlayEntry} {a : HTTPPage.Action} {i n m index cur room : ℕ}
  {r : HTTPRun} {x : List Write × Awaited} {reply : Reply}

theorem Heeds.append {x y : PlayEntry} (h : Heeds log x y) (new : List PlayEntry) : Heeds (log ++ new) x y :=
  fun i n m hx => ⟨fun hy => ((h i n m hx).1 hy).imp_right fun hlate => hlate.append new, (h i n m hx).2⟩

theorem current_start (enableVet : Bool) (stack : ℕ) : Current (HTTPPage.start enableVet stack) [] where
  newest i n := by simp [HTTPPage.start]
  playing m r hrun := by cases hrun
  heeds := .nil
  shows i := rfl

theorem screen_append (i : ℕ) (log new : List PlayEntry) : Terminal.screen i (heardEntries (log ++ new)) =
    (heardEntries new).foldl (Terminal.hear i) (Terminal.screen i (heardEntries log)) := by
  rw [heardEntries_append, Terminal.screen, List.foldl_append]
  rfl

theorem Current.newer (h : Current s log) (hran : .ran i m ∈ log) (hold : s.running i ≠ some m) :
    ∃ n, m < n ∧ .ran i n ∈ log := by
  by_contra hnot
  refine hold ((h.newest i m).mpr ⟨hran, fun n hn => ?_⟩)
  by_contra hlt
  exact hnot ⟨n, not_le.mp hlt, hn⟩

theorem shows_output (h : ∀ i, cells (s.outpre i) = some (Terminal.screen i (heardEntries log)))
    (hnew : heardEntries new = x.1.map (.called cur r.output)) (i : ℕ) :
    cells ((s.output cur r x).outpre i) = some (Terminal.screen i (heardEntries (log ++ new))) := by
  rw [screen_append, hnew, hear_calls]
  exact cells_update h r.output x.1 i

theorem onKill_timeout (hrun : (s.onKill index).transport.runs m = some r)
    (htimeout : ∃ e events data, r.awaited = .timeout e events data) :
    s.transport.runs m = some r ∧ s.running index ≠ some m := by
  have hsame := onKill_outputs s index m
  rw [hrun] at hsame
  obtain ⟨r₀, hrun₀, _⟩ := Option.map_eq_some_iff.mp hsame.symm
  obtain ⟨r', hrun', houtput, hkill⟩ := HTTPPage.onKill_run index hrun₀
  obtain rfl := Option.some.inj (hrun.symm.trans hrun')
  obtain ⟨e, events, data, htimeout⟩ := htimeout
  rcases hkill with ⟨hawaited, hother⟩ | ⟨hstop, _⟩
  · obtain ⟨o, w⟩ := r
    obtain ⟨o₀, w₀⟩ := r₀
    obtain rfl : o = o₀ := houtput
    obtain rfl : w = w₀ := hawaited
    exact ⟨hrun₀, hother⟩
  · rw [hstop] at htimeout
    cases hawaited : r₀.awaited <;> rw [hawaited] at htimeout <;> cases htimeout

theorem Current.kill (h : Current s log) (hnumbered : Numbered enableVet s log) (index : ℕ) :
    Current (s.onKill index) (log ++ s.killEntries index) := by
  have hran : ∀ i n, .ran i n ∈ log ++ s.killEntries index ↔ .ran i n ∈ log := by
    simp [HTTPPage.mem_killEntries]
  refine ⟨fun i n => ?_, fun m r hrun htimeout => ?_, ?_, fun i => ?_⟩
  · simp only [HTTPPage.onKill_running, hran]
    exact h.newest i n
  · obtain ⟨hrun, _⟩ := onKill_timeout hrun htimeout
    rw [HTTPPage.onKill_running]
    exact (h.playing m r hrun htimeout).imp_right fun hlate => hlate.append _
  · refine List.pairwise_append.mpr ⟨h.heeds.imp fun hxy => hxy.append _, ?_, fun x hx y hy => ?_⟩
    · unfold HTTPPage.killEntries
      split <;> simp
    · rintro i n m rfl
      obtain ⟨cur, r, hrun?, rfl⟩ := HTTPPage.mem_killEntries.mp hy
      obtain ⟨hrunning, hrun⟩ := HTTPPage.run?_eq_some.mp hrun?
      refine ⟨fun hcalled => by simp at hcalled, fun hkilled => ?_⟩
      obtain ⟨rfl, rfl⟩ := PlayEntry.killed.inj hkilled
      obtain ⟨hself, hmax⟩ := (h.newest index cur).mp hrunning
      have houtput := (hnumbered.ran index cur).mp hself
      rw [hrun, Option.map_some, Option.some.injEq] at houtput
      exact hmax n (houtput ▸ hx)
  · cases hrun? : s.run? index with
    | some x =>
      simp only [HTTPPage.onKill, HTTPPage.killEntries, hrun?]
      exact shows_output h.shows rfl i
    | none =>
      simp only [HTTPPage.onKill, HTTPPage.killEntries, hrun?, List.append_nil]
      exact h.shows i

/-- The next number is higher than those of the programs before. -/
theorem Current.newest_run (h : Current s log) (hnumbered : Numbered enableVet s log) (index i n : ℕ) :
    Function.update s.running index (some (s.transport.seq + 1)) i = some n ↔
      .ran i n ∈ log ++ [.ran index (s.transport.seq + 1)] ∧
        ∀ m, .ran i m ∈ log ++ [.ran index (s.transport.seq + 1)] → m ≤ n := by
  have hle : ∀ m, .ran i m ∈ log → m ≤ s.transport.seq := by
    intro m hm
    obtain ⟨r, hrun, _⟩ := Option.map_eq_some_iff.mp ((hnumbered.ran i m).mp hm)
    exact ((hnumbered.fresh m).mp (Option.isSome_of_eq_some hrun)).2
  simp only [Function.update_apply, List.mem_append, List.mem_singleton, PlayEntry.ran.injEq]
  split_ifs with hi
  · subst hi
    constructor
    · intro hn
      obtain rfl := Option.some.inj hn
      refine ⟨.inr ⟨rfl, rfl⟩, fun m hm => ?_⟩
      rcases hm with hm | ⟨_, rfl⟩
      · exact (hle m hm).trans (Nat.le_succ _)
      · exact le_rfl
    · rintro ⟨hn, hmax⟩
      have hge := hmax _ (.inr ⟨rfl, rfl⟩)
      rcases hn with hn | ⟨_, rfl⟩
      · have hlt := hle n hn
        omega
      · rfl
  · simp only [hi, false_and, or_false]
    exact h.newest i n

theorem Current.run (h : Current s log) (hnumbered : Numbered enableVet s log) (index : ℕ)
    (hidle : ∀ m r, s.transport.runs m = some r → (∃ e events data, r.awaited = .timeout e events data) →
      s.running index ≠ some m) :
    Current { transport := s.transport.run index
              running := Function.update s.running index (some (s.transport.seq + 1))
              outpre := Function.update s.outpre index [] } (log ++ [.ran index (s.transport.seq + 1)]) := by
  refine ⟨h.newest_run hnumbered index, fun m r hrun htimeout => ?_, ?_, fun i => ?_⟩
  · simp only [HTTPTransport.run, Function.update_apply] at hrun
    split_ifs at hrun
    · obtain rfl := Option.some.inj hrun
      obtain ⟨_, _, _, htimeout⟩ := htimeout
      cases htimeout
    · rcases h.playing m r hrun htimeout with hrunning | hlate
      · refine .inl ((Function.update_of_ne ?_ ..).trans hrunning)
        intro hi
        exact hidle m r hrun htimeout (hi ▸ hrunning)
      · exact .inr (hlate.append _)
  · refine List.pairwise_append.mpr
      ⟨h.heeds.imp fun hxy => hxy.append _, List.pairwise_singleton .., fun x hx y hy => ?_⟩
    obtain rfl := List.mem_singleton.mp hy
    exact fun i n m _ => ⟨fun hcalled => by simp at hcalled, fun hkilled => by cases hkilled⟩
  · have hscreen : Terminal.screen i (heardEntries (log ++ [.ran index (s.transport.seq + 1)])) =
        if index = i then [] else Terminal.screen i (heardEntries log) := screen_append i log _
    rw [hscreen]
    simp only [Function.update_apply]
    by_cases hi : i = index
    · rw [if_pos hi, if_pos hi.symm]
      rfl
    · rw [if_neg hi, if_neg (Ne.symm hi)]
      exact h.shows i

/-- Why something that comes may call the callback. -/
theorem receive_cases {enableVet latest : Bool} {awaited : Awaited}
    (hx : awaited.receive enableVet latest room reply = some x) :
    x = ([], .nothing) ∨ latest = true ∨ reply.unchecked = true ∨ ∃ e events data, awaited = .timeout e events data := by
  cases awaited with
  | compile =>
    cases reply with
    | compiled data =>
      cases latest with
      | true => exact .inr (.inl rfl)
      | false => exact .inl (Option.some.inj hx).symm
    | failed => exact .inr (.inr (.inl rfl))
    | vetted _ => cases hx
    | timeout => cases hx
  | vet data =>
    cases reply with
    | vetted _ => exact .inr (.inr (.inl rfl))
    | compiled _ => cases hx
    | failed => cases hx
    | timeout => cases hx
  | timeout e events data => exact .inr (.inr (.inr ⟨e, events, data, rfl⟩))
  | nothing => cases reply <;> cases hx
  | thrown => cases reply <;> cases hx

/-- A program that calls its callback is the last one of its playground, or a late one. -/
theorem Current.owns (h : Current s log) (hnumbered : Numbered enableVet s log) (hrun : s.transport.runs cur = some r)
    (hx : r.awaited.receive s.transport.enableVet (decide (s.transport.seq = cur)) room reply = some x)
    (calls : List PlayEntry) :
    x = ([], .nothing) ∨ s.running r.output = some cur ∨ Late r.output cur (log ++ .reply cur reply :: calls) := by
  have hself : .ran r.output cur ∈ log := (hnumbered.ran _ _).mpr (by rw [hrun, Option.map_some])
  rcases receive_cases hx with hnothing | hlatest | hunchecked | htimeout
  · exact .inl hnothing
  · have hmax := (hnumbered.latest hrun).mp hlatest
    exact .inr (.inl ((h.newest _ _).mpr ⟨hself, fun m hm => hmax _ m hm⟩))
  · by_cases hrunning : s.running r.output = some cur
    · exact .inr (.inl hrunning)
    · obtain ⟨n, hlt, hn⟩ := h.newer hself hrunning
      refine .inr (.inr ⟨n, reply, hlt, hunchecked, ?_⟩)
      exact (List.singleton_sublist.mpr hn).append (List.singleton_sublist.mpr (List.mem_cons_self ..))
  · exact .inr ((h.playing cur r hrun htimeout).imp_right fun hlate => hlate.append _)

theorem Current.answer (h : Current s log) (hnumbered : Numbered enableVet s log) (hrun : s.transport.runs cur = some r)
    (hx : r.awaited.receive s.transport.enableVet (decide (s.transport.seq = cur)) room reply = some x) :
    Current (s.output cur r x) (log ++ .reply cur reply :: x.1.map (.called cur r.output)) := by
  have hran : ∀ i n, .ran i n ∈ log ++ .reply cur reply :: x.1.map (.called cur r.output) ↔ .ran i n ∈ log := by
    simp
  have howns := h.owns hnumbered hrun hx (x.1.map (.called cur r.output))
  refine ⟨fun i n => ?_, fun m r' hrun' htimeout => ?_, ?_, shows_output h.shows (heardEntries_called ..)⟩
  · simp only [hran]
    exact h.newest i n
  · simp only [HTTPPage.output, HTTPTransport.setAwaited, Function.update_apply] at hrun'
    split_ifs at hrun' with hm
    · subst hm
      obtain rfl := Option.some.inj hrun'
      refine howns.resolve_left fun hnothing => ?_
      obtain ⟨_, _, _, htimeout⟩ := htimeout
      rw [hnothing] at htimeout
      cases htimeout
    · exact (h.playing m r' hrun' htimeout).imp_right fun hlate => hlate.append _
  · refine List.pairwise_append.mpr ⟨h.heeds.imp fun hxy => hxy.append _, ?_, fun e he y hy => ?_⟩
    · refine List.pairwise_iff_forall_sublist.mpr fun {e y} hsub i n m he => ?_
      have hmem := hsub.subset (List.mem_cons_self ..)
      simp [he] at hmem
    · rintro i n m rfl
      refine ⟨fun hcalled => ?_, fun hkilled => ?_⟩
      · obtain ⟨write, rfl⟩ := hcalled
        simp only [List.mem_cons, reduceCtorEq, List.mem_map, PlayEntry.called.injEq, false_or] at hy
        obtain ⟨write, hwrite, rfl, rfl, rfl⟩ := hy
        rcases howns with hnothing | hrunning | hlate
        · rw [hnothing] at hwrite
          cases hwrite
        · exact .inl (((h.newest _ _).mp hrunning).2 n he)
        · exact .inr hlate
      · subst hkilled
        simp at hy

theorem current_step (hnumbered : Numbered enableVet s log) (h : Current s log) (hs : s.step a = some s') :
    Current s' (s.watch a s' log) := by
  cases a with
  | onRun index =>
    obtain rfl := Option.some.inj hs
    have hrun := (h.kill hnumbered index).run (hnumbered.onKill index) index fun m r hrun htimeout => by
      rw [HTTPPage.onKill_running]
      exact (onKill_timeout hrun htimeout).2
    rw [HTTPPage.onKill_seq, List.append_assoc] at hrun
    rw [HTTPPage.onRun, HTTPPage.onKill_seq]
    exact hrun
  | onKill index =>
    obtain rfl := Option.some.inj hs
    exact h.kill hnumbered index
  | reply cur reply room =>
    obtain ⟨_, r, x, hrun, hx, rfl⟩ := HTTPPage.reply_eq_some.mp hs
    rw [HTTPPage.watch, HTTPPage.entries_reply hrun hx]
    exact h.answer hnumbered hrun hx

theorem current_of_logged (h : HTTPPage.Logged enableVet s log) : Current s log := by
  obtain ⟨stack, h⟩ := h
  have hboth : Numbered enableVet s log ∧ Current s log :=
    Reach.invariant (fun x => Numbered enableVet x.1 x.2 ∧ Current x.1 x.2)
      ⟨numbered_start enableVet stack, current_start enableVet stack⟩ (fun x a y _ hi _ hs => by
        obtain ⟨hstep, hlog⟩ := observe_eq_some.mp hs
        rw [hlog]
        exact ⟨numbered_step hi.1 hstep, current_step hi.1 hi.2 hstep⟩) h
  exact hboth.2

end

/-- Without `enableVet` nothing is asked of `/vet`. -/
theorem not_vetted {s : HTTPPage} {log : List PlayEntry} (h : HTTPPage.Logged false s log) (m : ℕ)
    (vetErrors : Option (List Char)) : .reply m (.vetted vetErrors) ∉ log := by
  obtain ⟨stack, h⟩ := h
  refine Reach.invariant (fun x => .reply m (.vetted vetErrors) ∉ x.2) (by simp) (fun x a y hr hi _ hs hmem => ?_) h
  obtain ⟨hstep, hlog⟩ := observe_eq_some.mp hs
  rw [hlog] at hmem
  obtain ⟨hnumbered, hstory⟩ := told_of_reach hr
  rcases List.mem_append.mp hmem with hold | hnew
  · exact hi hold
  · cases a with
    | onRun index => simp [HTTPPage.entries, HTTPPage.mem_killEntries] at hnew
    | onKill index => simp [HTTPPage.entries, HTTPPage.mem_killEntries] at hnew
    | reply cur reply room =>
      obtain ⟨_, r, x', hrun, hx, _⟩ := HTTPPage.reply_eq_some.mp hstep
      rw [HTTPPage.entries_reply hrun hx] at hnew
      simp only [List.mem_cons, PlayEntry.reply.injEq, List.mem_map, reduceCtorEq, and_false, exists_false,
        or_false] at hnew
      obtain ⟨rfl, rfl⟩ := hnew
      cases hawaited : r.awaited with
      | vet data => exact (hawaited ▸ hstory m r hrun).not_vet
      | compile => simp [hawaited, Awaited.receive] at hx
      | timeout e events data => simp [hawaited, Awaited.receive] at hx
      | nothing => simp [hawaited, Awaited.receive] at hx
      | thrown => simp [hawaited, Awaited.receive] at hx

/-- In every run of the playgrounds of a window, whatever is clicked, answered and timed out: each
playground shows what a terminal would that every run and every `start` clears and that is told what
the callbacks of its programs are told. Once a program has been run in a playground, only it and later
ones write there and are killed there, but for a program that was answered by an error or by `/vet`
when it had been replaced; and `/vet` is asked only with `enableVet`. -/
theorem last_program_shows (enableVet : Bool) (s : HTTPPage) (log : List PlayEntry) (h : HTTPPage.Logged enableVet s log) :
    (∀ i, cells (s.outpre i) = some (Terminal.screen i (heardEntries log))) ∧
      (∀ i n m write, [.ran i n, .called m i write] <+ log → n ≤ m ∨ Late i m log) ∧
        (∀ i n m, [.ran i n, .killed m i] <+ log → n ≤ m) ∧
          (enableVet = false → ∀ m vetErrors, .reply m (.vetted vetErrors) ∉ log) := by
  have hcurrent := current_of_logged h
  have hheeds : ∀ {x y}, [x, y] <+ log → Heeds log x y := List.pairwise_iff_forall_sublist.mp hcurrent.heeds
  refine ⟨hcurrent.shows, fun i n m write hsub => (hheeds hsub i n m rfl).1 ⟨write, rfl⟩,
    fun i n m hsub => (hheeds hsub i n m rfl).2 rfl, ?_⟩
  rintro rfl
  exact not_vetted h

/-- The third program writes when the fourth one has been run in its playground. -/
theorem last_program_shows_demo : [.ran 0 4, .called 3 0 startWrite] <+ demoReplay.2 ∧
    (∀ i, cells (demoReplay.1.outpre i) = some (Terminal.screen i (heardEntries demoReplay.2))) ∧
      (∀ i n m write, [.ran i n, .called m i write] <+ demoReplay.2 → n ≤ m ∨ Late i m demoReplay.2) ∧
        ∀ i n m, [.ran i n, .killed m i] <+ demoReplay.2 → n ≤ m := by
  obtain ⟨hshows, hcalled, hkilled, _⟩ := last_program_shows true demoReplay.1 demoReplay.2 demoReplay_logged
  exact ⟨by decide, hshows, hcalled, hkilled⟩

end HalfMesh.Slides
