import HalfMesh.Slides.HttpTransport
import HalfMesh.Slides.Transcript

/-! What is played back. Every program is heard once, from its `start` to its end, if no other program
has been run before its answer comes and the stack has room for what is played at once; and what a
playground shows is told by the last program run in it, but for programs that were already replaced
when `/vet` or an error answered. -/
namespace HalfMesh.Slides
open HalfMesh.Foundations
open scoped List
set_option autoImplicit false
set_option maxHeartbeats 250000
set_option maxRecDepth 120000

/-! ## What a program has to say -/

/-- A row of events without a delay for which the stack has no room. -/
structure Overflow (room : ℕ) (zeros : List PlayEvent) : Prop where
  long : room < zeros.length
  atOnce : ∀ e ∈ zeros, e.delay = 0

theorem Overflow.cons {room : ℕ} {zeros : List PlayEvent} {e : PlayEvent} (h : Overflow room zeros) (hdelay : e.delay = 0) :
    Overflow (room + 1) (e :: zeros) :=
  ⟨Nat.succ_lt_succ h.long, List.forall_mem_cons.mpr ⟨hdelay, h.atOnce⟩⟩

theorem Overflow.mono {stack room : ℕ} {zeros : List PlayEvent} (h : Overflow room zeros) (hle : stack ≤ room) :
    Overflow stack zeros :=
  ⟨hle.trans_lt h.long, h.atOnce⟩

namespace CompileData

/-- The calls of `output` that are left when `events` are. -/
def rest (data : CompileData) (events : List PlayEvent) : List Write := events.map PlayEvent.write ++ [data.endWrite]

/-- All calls of `output`, with the errors of `/vet` if that is asked. -/
def transcript (enableVet : Bool) (data : CompileData) (vetErrors : List Char) : List Write :=
  if data.errors ≠ [] ∧ data.errors ≠ tookTooLong then buildFailed data.errors
  else
    let told := if data.errors ≠ [] then data
      else data.withVet (if data.asksVet enableVet then vetErrors else data.vetErrors)
    startWrite :: told.rest told.events

variable {enableVet : Bool} {data : CompileData} {room : ℕ} {events : List PlayEvent} {writes : List Write}
  {awaited : Awaited}

theorem rest_append (zeros events : List PlayEvent) :
    data.rest (zeros ++ events) = zeros.map PlayEvent.write ++ data.rest events := by
  rw [rest, rest, List.map_append, List.append_assoc]

theorem asksVet_withVet (vetErrors : List Char) :
    (data.withVet vetErrors).asksVet enableVet = data.asksVet enableVet := by
  unfold withVet
  split <;> rfl

theorem withVet_asksVet (h : data.asksVet enableVet = true) : data.withVet data.vetErrors = data := by
  simp only [asksVet, Bool.and_eq_true, decide_eq_true_eq] at h
  rw [withVet, if_pos h.2]

theorem success_compiled (h : data.errors = []) : data.success enableVet room =
    if data.asksVet enableVet = true then ([], .vet data) else (data.withVet data.vetErrors).playback room := by
  rw [success, if_neg (not_not.mpr h)]
  show (if (data.withVet data.vetErrors).asksVet enableVet = true then _ else _) = _
  rw [asksVet_withVet]
  split_ifs with hasks
  · rw [withVet_asksVet hasks]
  · rfl

theorem transcript_compiled (h : data.errors = []) (vetErrors : List Char) : data.transcript enableVet vetErrors =
    startWrite :: (data.withVet (if data.asksVet enableVet = true then vetErrors else data.vetErrors)).rest
      (data.withVet (if data.asksVet enableVet = true then vetErrors else data.vetErrors)).events := by
  rw [transcript, if_neg fun hfailed => hfailed.1 h, if_neg (not_not.mpr h)]

/-- `next` goes on to the end, to the next timeout, or through as many events as the stack has room for. -/
theorem next_cases (h : data.next room events = (writes, awaited)) :
    (awaited = .nothing ∧ writes = data.rest events) ∨
      (∃ e later, awaited = .timeout e later data ∧ e :: later <:+ events ∧
        writes ++ data.rest (e :: later) = data.rest events) ∨
        ∃ zeros later, awaited = .thrown ∧ Overflow room zeros ∧ zeros ++ later = events ∧
          writes = zeros.map PlayEvent.write := by
  induction events generalizing room writes awaited with
  | nil =>
    rw [next] at h
    obtain ⟨rfl, rfl⟩ := Prod.mk.inj h
    exact .inl ⟨rfl, rfl⟩
  | cons e events ih =>
    cases room with
    | zero =>
      rw [next] at h
      split_ifs at h with hdelay
      · obtain ⟨rfl, rfl⟩ := Prod.mk.inj h
        exact .inr (.inr ⟨[e], events, rfl, ⟨Nat.one_pos, by simpa using hdelay⟩, rfl, rfl⟩)
      · obtain ⟨rfl, rfl⟩ := Prod.mk.inj h
        exact .inr (.inl ⟨e, events, rfl, List.suffix_rfl, rfl⟩)
    | succ room =>
      rw [next] at h
      split_ifs at h with hdelay
      · obtain ⟨rfl, rfl⟩ := Prod.mk.inj h
        rcases ih rfl with ⟨hover, hwrites⟩ | ⟨e', later, hlater, hsuffix, hwrites⟩ |
          ⟨zeros, later, hthrown, hrow, hsplit, hwrites⟩
        · exact .inl ⟨hover, by rw [hwrites]; rfl⟩
        · refine .inr (.inl ⟨e', later, hlater, hsuffix.trans (List.suffix_cons e events), ?_⟩)
          rw [List.cons_append, hwrites]
          rfl
        · exact .inr (.inr ⟨e :: zeros, later, hthrown, hrow.cons hdelay, congrArg (e :: ·) hsplit,
            congrArg (e.write :: ·) hwrites⟩)
      · obtain ⟨rfl, rfl⟩ := Prod.mk.inj h
        exact .inr (.inl ⟨e, events, rfl, List.suffix_rfl, rfl⟩)

end CompileData

/-! ## The log of a page -/

/-- A program is run in a playground; something comes for it; its callback is called by what came, or
by `Kill`. -/
inductive PlayEntry
  | ran (index cur : ℕ)
  | reply (cur : ℕ) (reply : Reply)
  | called (cur output : ℕ) (write : Write)
  | killed (cur output : ℕ)
  deriving DecidableEq

def PlayEntry.isCall (n : ℕ) : PlayEntry → Option Write
  | .called cur _ write => if cur = n then some write else none
  | _ => none

/-- The calls of the callback of a program, without those of `Kill`. -/
def playedBy (n : ℕ) (log : List PlayEntry) : List Write := log.filterMap (PlayEntry.isCall n)

@[simp] theorem playedBy_append (n : ℕ) (log log' : List PlayEntry) :
    playedBy n (log ++ log') = playedBy n log ++ playedBy n log' := List.filterMap_append
@[simp] theorem playedBy_nil (n : ℕ) : playedBy n [] = [] := rfl
@[simp] theorem playedBy_ran (n index cur : ℕ) (log : List PlayEntry) :
    playedBy n (.ran index cur :: log) = playedBy n log := rfl
@[simp] theorem playedBy_reply (n cur : ℕ) (reply : Reply) (log : List PlayEntry) :
    playedBy n (.reply cur reply :: log) = playedBy n log := rfl
@[simp] theorem playedBy_killed (n cur output : ℕ) (log : List PlayEntry) :
    playedBy n (.killed cur output :: log) = playedBy n log := rfl

theorem playedBy_called (n cur output : ℕ) (writes : List Write) :
    playedBy n (writes.map (.called cur output)) = if cur = n then writes else [] :=
  filterMap_map_if (PlayEntry.called cur output) (PlayEntry.isCall n) (fun _ => rfl) writes

namespace HTTPPage

def killEntries (s : HTTPPage) (index : ℕ) : List PlayEntry :=
  match s.run? index with
  | some (cur, r) => [.killed cur r.output]
  | none => []

/-- What a step adds to the log. -/
def entries (s : HTTPPage) : Action → List PlayEntry
  | .onRun index => s.killEntries index ++ [.ran index (s.transport.seq + 1)]
  | .onKill index => s.killEntries index
  | .reply cur reply room => .reply cur reply ::
    match s.transport.runs cur with
    | some r =>
      match r.awaited.receive s.transport.enableVet (decide (s.transport.seq = cur)) room reply with
      | some (writes, _) => writes.map (.called cur r.output)
      | none => []
    | none => []

def watch (s : HTTPPage) (a : Action) (_ : HTTPPage) (log : List PlayEntry) : List PlayEntry := log ++ s.entries a

/-- A page, however much its stack has room for, and what has happened in it. -/
def Logged (enableVet : Bool) (s : HTTPPage) (log : List PlayEntry) : Prop :=
  ∃ stack, Reach (observe step watch) anyStep (start enableVet stack, []) (s, log)

variable {s s' : HTTPPage} {a : Action} {n index cur room : ℕ} {r : HTTPRun} {reply : Reply}

theorem run?_eq_some : s.run? index = some (cur, r) ↔ s.running index = some cur ∧ s.transport.runs cur = some r := by
  simp only [run?, Option.bind_eq_some_iff, Option.map_eq_some_iff, Prod.mk.injEq]
  constructor
  · rintro ⟨cur', hrunning, r', hrun, rfl, rfl⟩
    exact ⟨hrunning, hrun⟩
  · rintro ⟨hrunning, hrun⟩
    exact ⟨cur, hrunning, r, hrun, rfl, rfl⟩

theorem onKill_seq : (s.onKill index).transport.seq = s.transport.seq := by
  unfold onKill
  split <;> rfl

theorem onKill_enableVet : (s.onKill index).transport.enableVet = s.transport.enableVet := by
  unfold onKill
  split <;> rfl

theorem onKill_stack : (s.onKill index).transport.stack = s.transport.stack := by
  unfold onKill
  split <;> rfl

theorem onKill_running : (s.onKill index).running = s.running := by
  unfold onKill
  split <;> rfl

theorem onRun_runs : (s.onRun index).transport.runs =
    Function.update (s.onKill index).transport.runs (s.transport.seq + 1) (some { output := index, awaited := .compile }) := by
  have hseq : (s.onKill index).transport.seq = s.transport.seq := onKill_seq
  rw [← hseq]
  rfl

theorem mem_killEntries {x : PlayEntry} :
    x ∈ s.killEntries index ↔ ∃ cur r, s.run? index = some (cur, r) ∧ x = .killed cur r.output := by
  unfold killEntries
  split
  next cur r h => simp [h]
  next h => simp [h]

theorem playedBy_killEntries : playedBy n (s.killEntries index) = [] := by
  unfold killEntries
  split <;> rfl

theorem onKill_run (index : ℕ) (hrun : s.transport.runs n = some r) :
    ∃ r', (s.onKill index).transport.runs n = some r' ∧ r'.output = r.output ∧
      (r'.awaited = r.awaited ∧ s.running index ≠ some n ∨
        r'.awaited = r.awaited.stop ∧ s.running index = some n ∧ .killed n r.output ∈ s.killEntries index) := by
  unfold onKill
  split
  next cur r' h =>
    obtain ⟨hrunning, hrun'⟩ := run?_eq_some.mp h
    by_cases hn : n = cur
    · subst hn
      obtain rfl := Option.some.inj (hrun.symm.trans hrun')
      exact ⟨_, Function.update_self .., rfl, .inr ⟨rfl, hrunning, mem_killEntries.mpr ⟨n, r, h, rfl⟩⟩⟩
    · refine ⟨r, (Function.update_of_ne hn ..).trans hrun, rfl, .inl ⟨rfl, fun hself => hn ?_⟩⟩
      exact Option.some.inj (hself.symm.trans hrunning)
  next h =>
    refine ⟨r, hrun, rfl, .inl ⟨rfl, fun hself => ?_⟩⟩
    rw [run?_eq_some.mpr ⟨hself, hrun⟩] at h
    cases h

theorem reply_eq_some : s.step (.reply cur reply room) = some s' ↔ s.transport.stack ≤ room ∧
    ∃ r x, s.transport.runs cur = some r ∧
      r.awaited.receive s.transport.enableVet (decide (s.transport.seq = cur)) room reply = some x ∧
      s.output cur r x = s' := by
  rw [step]
  split_ifs with hroom
  · constructor
    · intro h
      cases h
    · rintro ⟨hle, _⟩
      exact absurd hroom (not_lt.mpr hle)
  · simp only [Option.bind_eq_some_iff, Option.map_eq_some_iff]
    constructor
    · rintro ⟨r, hrun, x, hx, rfl⟩
      exact ⟨not_lt.mp hroom, r, x, hrun, hx, rfl⟩
    · rintro ⟨_, r, x, hrun, hx, rfl⟩
      exact ⟨r, hrun, x, hx, rfl⟩

theorem entries_reply {x : List Write × Awaited} (hrun : s.transport.runs cur = some r)
    (hx : r.awaited.receive s.transport.enableVet (decide (s.transport.seq = cur)) room reply = some x) :
    s.entries (.reply cur reply room) = .reply cur reply :: x.1.map (.called cur r.output) := by
  simp only [entries, hrun, hx]

theorem step_stack (hs : s.step a = some s') : s'.transport.stack = s.transport.stack := by
  cases a with
  | onRun index =>
    obtain rfl := Option.some.inj hs
    exact onKill_stack
  | onKill index =>
    obtain rfl := Option.some.inj hs
    exact onKill_stack
  | reply cur reply room =>
    obtain ⟨_, r, x, _, _, rfl⟩ := reply_eq_some.mp hs
    rfl

/-- What a step does to a run: nothing, or it is killed, or something comes for it. -/
theorem step_run (hs : s.step a = some s') (hrun : s.transport.runs n = some r) (hn : n ≤ s.transport.seq) :
    ∃ r', s'.transport.runs n = some r' ∧ r'.output = r.output ∧
      ((∀ reply, .reply n reply ∉ s.entries a) ∧ playedBy n (s.entries a) = [] ∧
          (r'.awaited = r.awaited ∨ r'.awaited = r.awaited.stop ∧ .killed n r.output ∈ s.entries a) ∨
        ∃ reply room writes, s.transport.stack ≤ room ∧
          r.awaited.receive s.transport.enableVet (decide (s.transport.seq = n)) room reply = some (writes, r'.awaited) ∧
          s.entries a = .reply n reply :: writes.map (.called n r.output)) := by
  cases a with
  | onRun index =>
    obtain rfl := Option.some.inj hs
    obtain ⟨r', hrun', houtput, hkill⟩ := onKill_run index hrun
    refine ⟨r', ?_, houtput, .inl ⟨fun reply hmem => ?_, ?_, ?_⟩⟩
    · have hne : n ≠ (s.onKill index).transport.seq + 1 := by
        rw [onKill_seq]
        omega
      exact (Function.update_of_ne hne ..).trans hrun'
    · simp [entries, mem_killEntries] at hmem
    · simp [entries, playedBy_killEntries]
    · rcases hkill with ⟨hsame, _⟩ | ⟨hstop, _, hkilled⟩
      · exact .inl hsame
      · exact .inr ⟨hstop, List.mem_append_left _ hkilled⟩
  | onKill index =>
    obtain rfl := Option.some.inj hs
    obtain ⟨r', hrun', houtput, hkill⟩ := onKill_run index hrun
    refine ⟨r', hrun', houtput, .inl ⟨fun reply hmem => ?_, playedBy_killEntries, ?_⟩⟩
    · simp [entries, mem_killEntries] at hmem
    · rcases hkill with ⟨hsame, _⟩ | ⟨hstop, _, hkilled⟩
      · exact .inl hsame
      · exact .inr ⟨hstop, hkilled⟩
  | reply cur reply room =>
    obtain ⟨hroom, r₀, x, hrun₀, hx, rfl⟩ := reply_eq_some.mp hs
    rw [entries_reply hrun₀ hx]
    by_cases hself : n = cur
    · subst hself
      obtain rfl := Option.some.inj (hrun.symm.trans hrun₀)
      exact ⟨_, Function.update_self .., rfl, .inr ⟨reply, room, x.1, hroom, hx, rfl⟩⟩
    · refine ⟨r, (Function.update_of_ne hself ..).trans hrun, rfl, .inl ⟨fun reply' hmem => ?_, ?_, .inl rfl⟩⟩
      · simp only [List.mem_cons, PlayEntry.reply.injEq, List.mem_map, reduceCtorEq, and_false, exists_false,
          or_false] at hmem
        exact hself hmem.1
      · rw [playedBy_reply, playedBy_called, if_neg (Ne.symm hself)]

end HTTPPage

/-! ## What a program has told -/

/-- A program whose source was compiled to `data`: what it has told so far, by what it waits for. It has
told all that comes before what is left, and is left there by a `Kill`, or by more events in a row
without a delay than the stack has room for. A `null` answer of `/vet` leaves all of it. -/
inductive Telling (enableVet : Bool) (stack : ℕ) (data : CompileData) (n : ℕ) (log : List PlayEntry) : Awaited → Prop
  | vetting (hcompiled : data.errors = []) (hasks : data.asksVet enableVet = true) (hnone : playedBy n log = []) :
    Telling enableVet stack data n log (.vet data)
  | refused (hcompiled : data.errors = []) (hasks : data.asksVet enableVet = true)
    (hnull : .reply n (.vetted none) ∈ log) (hnone : playedBy n log = []) : Telling enableVet stack data n log .thrown
  | playing (vetErrors : List Char) (e : PlayEvent) (events : List PlayEvent) (told : CompileData)
    (hvet : data.errors = [] → data.asksVet enableVet = true → .reply n (.vetted (some vetErrors)) ∈ log)
    (hbegun : playedBy n log ≠ []) (hleft : e :: events <:+ told.events)
    (htold : playedBy n log ++ told.rest (e :: events) = data.transcript enableVet vetErrors) :
    Telling enableVet stack data n log (.timeout e events told)
  | ended (vetErrors : List Char)
    (hvet : data.errors = [] → data.asksVet enableVet = true → .reply n (.vetted (some vetErrors)) ∈ log)
    (htold : playedBy n log = data.transcript enableVet vetErrors) : Telling enableVet stack data n log .nothing
  | killed (vetErrors : List Char) (output output' : ℕ) (write : Write)
    (hvet : data.errors = [] → data.asksVet enableVet = true → .reply n (.vetted (some vetErrors)) ∈ log)
    (hkilled : [.called n output write, .killed n output'] <+ log)
    (htold : playedBy n log <+: data.transcript enableVet vetErrors) :
    Telling enableVet stack data n log .nothing
  | overflown (vetErrors : List Char) (zeros events : List PlayEvent) (told : CompileData)
    (hvet : data.errors = [] → data.asksVet enableVet = true → .reply n (.vetted (some vetErrors)) ∈ log)
    (hrow : Overflow stack zeros) (hleft : zeros ++ events <:+ told.events)
    (htold : playedBy n log ++ told.rest events = data.transcript enableVet vetErrors) :
    Telling enableVet stack data n log .thrown

/-- What a program has told so far. Nothing before an answer of `/compile`, and nothing after one that
came when another program had been run, in whatever playground. -/
inductive Story (enableVet : Bool) (stack n : ℕ) (log : List PlayEntry) : Awaited → Prop
  | asked (hopen : ∀ reply, .reply n reply ∉ log) (hnone : playedBy n log = []) : Story enableVet stack n log .compile
  | failed (hfailed : .reply n .failed ∈ log) (htold : playedBy n log = errorWrites) :
    Story enableVet stack n log .nothing
  | silent (before after : List PlayEntry) (data : Option CompileData)
    (hlog : log = before ++ .reply n (.compiled data) :: after)
    (hlate : data = none ∨ ∃ i m, .ran i m ∈ before ∧ n < m) (hnone : playedBy n log = []) :
    Story enableVet stack n log .nothing
  | told (before after : List PlayEntry) (data : CompileData) (awaited : Awaited)
    (hlog : log = before ++ .reply n (.compiled (some data)) :: after)
    (hlatest : ∀ i m, .ran i m ∈ before → m ≤ n) (htold : Telling enableVet stack data n log awaited) :
    Story enableVet stack n log awaited

section
variable {enableVet latest : Bool} {data told : CompileData} {stack room n o : ℕ} {log new : List PlayEntry}
  {awaited awaited' : Awaited} {reply : Reply} {writes : List Write}

theorem exists_called (h : playedBy n log ≠ []) : ∃ output write, .called n output write ∈ log := by
  obtain ⟨write, hwrite⟩ := List.exists_mem_of_ne_nil _ h
  obtain ⟨x, hx, hcall⟩ := List.mem_filterMap.mp hwrite
  cases x with
  | called cur output write' =>
    obtain ⟨rfl, _⟩ := Option.ite_none_right_eq_some.mp hcall
    exact ⟨output, write', hx⟩
  | ran _ _ => cases hcall
  | reply _ _ => cases hcall
  | killed _ _ => cases hcall

theorem Telling.quiet (h : Telling enableVet stack data n log awaited) (hquiet : playedBy n new = [])
    (hawaited : awaited' = awaited ∨ awaited' = awaited.stop ∧ .killed n o ∈ new) :
    Telling enableVet stack data n (log ++ new) awaited' := by
  have hsame : playedBy n (log ++ new) = playedBy n log := by
    rw [playedBy_append, hquiet, List.append_nil]
  cases h with
  | vetting hcompiled hasks hnone =>
    have hvet : awaited' = .vet data := hawaited.elim id And.left
    rw [hvet]
    exact .vetting hcompiled hasks (hsame.trans hnone)
  | refused hcompiled hasks hnull hnone =>
    have hthrown : awaited' = .thrown := hawaited.elim id And.left
    rw [hthrown]
    exact .refused hcompiled hasks (List.mem_append_left _ hnull) (hsame.trans hnone)
  | playing vetErrors e events told hvet hbegun hleft htold =>
    have hvet' := fun hcompiled hasks => List.mem_append_left new (hvet hcompiled hasks)
    rcases hawaited with rfl | ⟨rfl, hkilled⟩
    · exact .playing vetErrors e events told hvet' (hsame ▸ hbegun) hleft (hsame ▸ htold)
    · obtain ⟨output, write, hcalled⟩ := exists_called hbegun
      have horder := (List.singleton_sublist.mpr hcalled).append (List.singleton_sublist.mpr hkilled)
      exact .killed vetErrors output o write hvet' horder (hsame ▸ ⟨_, htold⟩)
  | ended vetErrors hvet htold =>
    have hover : awaited' = .nothing := hawaited.elim id And.left
    rw [hover]
    exact .ended vetErrors (fun hcompiled hasks => List.mem_append_left _ (hvet hcompiled hasks)) (hsame.trans htold)
  | killed vetErrors output output' write hvet hkilled htold =>
    have hover : awaited' = .nothing := hawaited.elim id And.left
    rw [hover]
    exact .killed vetErrors output output' write (fun hcompiled hasks => List.mem_append_left _ (hvet hcompiled hasks))
      (hkilled.trans (List.sublist_append_left ..)) (hsame ▸ htold)
  | overflown vetErrors zeros events told hvet hrow hleft htold =>
    have hthrown : awaited' = .thrown := hawaited.elim id And.left
    rw [hthrown]
    exact .overflown vetErrors zeros events told (fun hcompiled hasks => List.mem_append_left _ (hvet hcompiled hasks))
      hrow hleft (hsame ▸ htold)

theorem playedBy_answer : playedBy n (log ++ .reply n reply :: writes.map (.called n o)) = playedBy n log ++ writes := by
  rw [playedBy_append, playedBy_reply, playedBy_called, if_pos rfl]

/-- `next` goes on where the program has told what comes before. -/
theorem Telling.of_next (vetErrors : List Char) (before : List Write) {events : List PlayEvent}
    (hnext : told.next room events = (writes, awaited)) (hroom : stack ≤ room)
    (hvet : data.errors = [] → data.asksVet enableVet = true → .reply n (.vetted (some vetErrors)) ∈ log)
    (hleft : events <:+ told.events) (hbegun : playedBy n log ≠ [])
    (hbefore : playedBy n log = before ++ writes)
    (htold : before ++ told.rest events = data.transcript enableVet vetErrors) :
    Telling enableVet stack data n log awaited := by
  rcases CompileData.next_cases hnext with
    ⟨rfl, rfl⟩ | ⟨e, later, rfl, hsuffix, hwrites⟩ | ⟨zeros, later, rfl, hrow, rfl, rfl⟩
  · exact .ended vetErrors hvet (hbefore.trans htold)
  · refine .playing vetErrors e later told hvet hbegun (hsuffix.trans hleft) ?_
    rw [hbefore, List.append_assoc, hwrites, htold]
  · refine .overflown vetErrors zeros later told hvet (hrow.mono hroom) hleft ?_
    rw [hbefore, List.append_assoc, ← CompileData.rest_append, htold]

theorem Telling.of_playback (vetErrors : List Char) (hplay : told.playback room = (writes, awaited))
    (hroom : stack ≤ room)
    (htranscript : data.transcript enableVet vetErrors = startWrite :: told.rest told.events) (hnone : playedBy n log = [])
    (hvet : data.errors = [] → data.asksVet enableVet = true → reply = .vetted (some vetErrors)) :
    Telling enableVet stack data n (log ++ .reply n reply :: writes.map (.called n o)) awaited := by
  obtain ⟨rfl, rfl⟩ := Prod.mk.inj hplay
  refine .of_next vetErrors [startWrite] rfl hroom (fun hcompiled hasks => ?_) List.suffix_rfl ?_ ?_
    htranscript.symm
  · rw [hvet hcompiled hasks]
    simp
  · rw [playedBy_answer, hnone]
    exact List.cons_ne_nil _ _
  · rw [playedBy_answer, hnone]
    rfl

theorem Telling.of_success (hx : data.success enableVet room = (writes, awaited)) (hroom : stack ≤ room)
    (hnone : playedBy n log = []) :
    Telling enableVet stack data n (log ++ .reply n (.compiled (some data)) :: writes.map (.called n o)) awaited := by
  by_cases herrors : data.errors = []
  · rw [CompileData.success_compiled herrors] at hx
    cases hasks : data.asksVet enableVet with
    | true =>
      rw [if_pos hasks] at hx
      obtain ⟨rfl, rfl⟩ := Prod.mk.inj hx
      refine .vetting herrors hasks ?_
      rw [playedBy_answer, hnone, List.append_nil]
    | false =>
      rw [hasks, if_neg Bool.false_ne_true] at hx
      refine .of_playback [] hx hroom ?_ hnone fun _ hasks' => absurd (hasks.symm.trans hasks') Bool.false_ne_true
      rw [CompileData.transcript_compiled herrors, hasks, if_neg Bool.false_ne_true]
  · by_cases hlong : data.errors = tookTooLong
    · rw [CompileData.success, if_pos herrors, if_pos hlong] at hx
      refine .of_playback [] hx hroom ?_ hnone fun hcompiled => absurd hcompiled herrors
      rw [CompileData.transcript, if_neg fun h => h.2 hlong, if_pos herrors]
    · rw [CompileData.success, if_pos herrors, if_neg hlong] at hx
      obtain ⟨rfl, rfl⟩ := Prod.mk.inj hx
      refine .ended [] (fun hcompiled => absurd hcompiled herrors) ?_
      rw [playedBy_answer, hnone, CompileData.transcript, if_pos ⟨herrors, hlong⟩, List.nil_append]

/-- What comes for a program that waits for vet or for a timeout. -/
theorem Telling.receive (h : Telling enableVet stack data n log awaited) (hroom : stack ≤ room)
    (hx : awaited.receive enableVet latest room reply = some (writes, awaited')) :
    Telling enableVet stack data n (log ++ .reply n reply :: writes.map (.called n o)) awaited' := by
  cases h with
  | vetting hcompiled hasks hnone =>
    cases reply with
    | vetted vetErrors =>
      cases vetErrors with
      | some vetErrors =>
        refine .of_playback vetErrors (Option.some.inj hx) hroom ?_ hnone fun _ _ => rfl
        rw [CompileData.transcript_compiled hcompiled, hasks, if_pos rfl]
      | none =>
        obtain ⟨rfl, rfl⟩ := Prod.mk.inj (Option.some.inj hx)
        exact .refused hcompiled hasks (by simp) (by rw [playedBy_answer, hnone, List.append_nil])
    | compiled _ => cases hx
    | failed => cases hx
    | timeout => cases hx
  | playing vetErrors e events told hvet hbegun hleft htold =>
    cases reply with
    | timeout =>
      obtain ⟨rfl, rfl⟩ := Prod.mk.inj (Option.some.inj hx)
      refine .of_next vetErrors (playedBy n log ++ [e.write]) rfl hroom (fun hcompiled hasks => ?_)
        ((List.suffix_cons e events).trans hleft) ?_ ?_ ?_
      · exact List.mem_append_left _ (hvet hcompiled hasks)
      · rw [playedBy_answer]
        exact List.append_ne_nil_of_left_ne_nil hbegun _
      · rw [playedBy_answer, List.append_assoc]
        rfl
      · rw [← htold, List.append_assoc]
        rfl
    | compiled _ => cases hx
    | failed => cases hx
    | vetted _ => cases hx
  | refused => cases reply <;> cases hx
  | ended => cases reply <;> cases hx
  | killed => cases reply <;> cases hx
  | overflown => cases reply <;> cases hx

theorem Story.quiet (h : Story enableVet stack n log awaited) (hopen : ∀ reply, .reply n reply ∉ new)
    (hquiet : playedBy n new = []) (hawaited : awaited' = awaited ∨ awaited' = awaited.stop ∧ .killed n o ∈ new) :
    Story enableVet stack n (log ++ new) awaited' := by
  have hsame : playedBy n (log ++ new) = playedBy n log := by
    rw [playedBy_append, hquiet, List.append_nil]
  cases h with
  | asked hopen' hnone =>
    have hcompile : awaited' = .compile := hawaited.elim id And.left
    rw [hcompile]
    refine .asked (fun reply hmem => ?_) (hsame.trans hnone)
    exact (List.mem_append.mp hmem).elim (hopen' reply) (hopen reply)
  | failed hfailed htold =>
    have hover : awaited' = .nothing := hawaited.elim id And.left
    rw [hover]
    exact .failed (List.mem_append_left _ hfailed) (hsame.trans htold)
  | silent before after data hlog hlate hnone =>
    have hover : awaited' = .nothing := hawaited.elim id And.left
    rw [hover]
    exact .silent before (after ++ new) data (by rw [hlog]; simp) hlate (hsame.trans hnone)
  | told before after data _ hlog hlatest htold =>
    exact .told before (after ++ new) data awaited' (by rw [hlog]; simp) hlatest (htold.quiet hquiet hawaited)

theorem Story.receive (h : Story enableVet stack n log awaited) (hlatest : latest = true ↔ ∀ i m, .ran i m ∈ log → m ≤ n)
    (hroom : stack ≤ room) (hx : awaited.receive enableVet latest room reply = some (writes, awaited')) :
    Story enableVet stack n (log ++ .reply n reply :: writes.map (.called n o)) awaited' := by
  cases h with
  | asked hopen hnone =>
    cases reply with
    | compiled data =>
      have hx := Option.some.inj hx
      cases latest with
      | true =>
        cases data with
        | some data => exact .told log _ data awaited' rfl (hlatest.mp rfl) (.of_success hx hroom hnone)
        | none =>
          obtain ⟨rfl, rfl⟩ := Prod.mk.inj hx
          exact .silent log _ none rfl (.inl rfl) (by simpa using hnone)
      | false =>
        obtain ⟨rfl, rfl⟩ := Prod.mk.inj hx
        have hlate : ∃ i m, .ran i m ∈ log ∧ n < m := by
          by_contra hnot
          refine Bool.false_ne_true (hlatest.mpr fun i m hran => ?_)
          by_contra hlt
          exact hnot ⟨i, m, hran, not_le.mp hlt⟩
        exact .silent log _ data rfl (.inr hlate) (by simpa using hnone)
    | failed =>
      obtain ⟨rfl, rfl⟩ := Prod.mk.inj (Option.some.inj hx)
      refine .failed (by simp) ?_
      rw [playedBy_answer, hnone, List.nil_append]
    | vetted _ => cases hx
    | timeout => cases hx
  | failed => cases reply <;> cases hx
  | silent => cases reply <;> cases hx
  | told before after data _ hlog hbefore htold =>
    exact .told before (after ++ .reply n reply :: writes.map (.called n o)) data awaited' (by rw [hlog]; simp) hbefore
      (htold.receive hroom hx)

theorem Story.not_vet (h : Story false stack n log (.vet data)) : False := by
  cases h with
  | told before after data _ hlog hlatest htold =>
    cases htold with
    | vetting hcompiled hasks hnone => cases hasks

end

/-! ## Which programs are run -/

/-- What the transport and the log know of the programs that have been run. -/
structure Numbered (enableVet : Bool) (s : HTTPPage) (log : List PlayEntry) : Prop where
  enableVet : s.transport.enableVet = enableVet
  fresh : ∀ n, (s.transport.runs n).isSome ↔ 0 < n ∧ n ≤ s.transport.seq
  ran : ∀ i n, .ran i n ∈ log ↔ (s.transport.runs n).map HTTPRun.output = some i
  unheard : ∀ n, s.transport.runs n = none → (∀ reply, .reply n reply ∉ log) ∧ playedBy n log = []

section
variable {enableVet : Bool} {s s' : HTTPPage} {log new : List PlayEntry} {a : HTTPPage.Action} {n index cur : ℕ}
  {r : HTTPRun} {x : List Write × Awaited}

theorem output_outputs (hrun : s.transport.runs cur = some r) (n : ℕ) :
    ((s.output cur r x).transport.runs n).map HTTPRun.output = (s.transport.runs n).map HTTPRun.output := by
  by_cases hn : n = cur
  · subst hn
    simp [HTTPPage.output, HTTPTransport.setAwaited, hrun]
  · simp [HTTPPage.output, HTTPTransport.setAwaited, hn]

theorem onKill_outputs (s : HTTPPage) (index n : ℕ) :
    ((s.onKill index).transport.runs n).map HTTPRun.output = (s.transport.runs n).map HTTPRun.output := by
  unfold HTTPPage.onKill
  split
  next cur r h => exact output_outputs (HTTPPage.run?_eq_some.mp h).2 n
  next => rfl

theorem numbered_start (enableVet : Bool) (stack : ℕ) : Numbered enableVet (HTTPPage.start enableVet stack) [] where
  enableVet := rfl
  fresh n := by
    simp [HTTPPage.start, HTTPTransport.start]
    omega
  ran i n := by simp [HTTPPage.start, HTTPTransport.start]
  unheard n _ := ⟨by simp, rfl⟩

/-- Steps that run no program. -/
theorem Numbered.congr (h : Numbered enableVet s log) (henable : s'.transport.enableVet = s.transport.enableVet)
    (hseq : s'.transport.seq = s.transport.seq)
    (houtputs : ∀ n, (s'.transport.runs n).map HTTPRun.output = (s.transport.runs n).map HTTPRun.output)
    (hran : ∀ i n, .ran i n ∉ new)
    (hnew : ∀ n, s.transport.runs n = none → (∀ reply, .reply n reply ∉ new) ∧ playedBy n new = []) :
    Numbered enableVet s' (log ++ new) where
  enableVet := henable.trans h.enableVet
  fresh n := by
    rw [← Option.isSome_map, houtputs, Option.isSome_map, hseq]
    exact h.fresh n
  ran i n := by
    rw [houtputs, ← h.ran, List.mem_append, or_iff_left (hran i n)]
  unheard n hnone := by
    have hold : s.transport.runs n = none := by
      rw [← Option.map_eq_none_iff, ← houtputs, hnone, Option.map_none]
    obtain ⟨hopen, hplayed⟩ := h.unheard n hold
    obtain ⟨hopen', hplayed'⟩ := hnew n hold
    refine ⟨fun reply hmem => (List.mem_append.mp hmem).elim (hopen reply) (hopen' reply), ?_⟩
    rw [playedBy_append, hplayed, hplayed', List.append_nil]

theorem Numbered.onKill (h : Numbered enableVet s log) (index : ℕ) :
    Numbered enableVet (s.onKill index) (log ++ s.killEntries index) :=
  h.congr HTTPPage.onKill_enableVet HTTPPage.onKill_seq (onKill_outputs s index) (by simp [HTTPPage.mem_killEntries])
    fun _ _ => ⟨by simp [HTTPPage.mem_killEntries], HTTPPage.playedBy_killEntries⟩

theorem Numbered.run (h : Numbered enableVet s log) (index : ℕ) (running : ℕ → Option ℕ) (outpre : ℕ → List Node) :
    Numbered enableVet { transport := s.transport.run index, running := running, outpre := outpre }
      (log ++ [.ran index (s.transport.seq + 1)]) where
  enableVet := h.enableVet
  fresh n := by
    simp only [HTTPTransport.run, Function.update_apply]
    split_ifs with hn
    · simp [hn]
    · rw [h.fresh]
      omega
  ran i n := by
    simp only [HTTPTransport.run, Function.update_apply, List.mem_append, List.mem_singleton, PlayEntry.ran.injEq]
    split_ifs with hn
    · subst hn
      have hold : s.transport.runs (s.transport.seq + 1) = none := by
        rw [← Option.not_isSome_iff_eq_none, h.fresh]
        omega
      simp [h.ran, hold, eq_comm]
    · simp [hn, h.ran]
  unheard n hnone := by
    have hn : n ≠ s.transport.seq + 1 := by
      rintro rfl
      simp [HTTPTransport.run] at hnone
    have hold : s.transport.runs n = none := by
      simpa [HTTPTransport.run, hn] using hnone
    simpa using h.unheard n hold

theorem numbered_step (h : Numbered enableVet s log) (hs : s.step a = some s') :
    Numbered enableVet s' (s.watch a s' log) := by
  cases a with
  | onRun index =>
    obtain rfl := Option.some.inj hs
    have hrun := (h.onKill index).run index
      (Function.update (s.onKill index).running index (some ((s.onKill index).transport.seq + 1)))
      (Function.update (s.onKill index).outpre index [])
    rw [HTTPPage.onKill_seq, List.append_assoc] at hrun
    rw [HTTPPage.onRun, HTTPPage.onKill_seq]
    exact hrun
  | onKill index =>
    obtain rfl := Option.some.inj hs
    exact h.onKill index
  | reply cur reply room =>
    obtain ⟨_, r, x, hrun, hx, rfl⟩ := HTTPPage.reply_eq_some.mp hs
    rw [HTTPPage.watch, HTTPPage.entries_reply hrun hx]
    refine h.congr rfl rfl (output_outputs hrun) (by simp) fun n hnone => ?_
    have hn : n ≠ cur := by
      rintro rfl
      rw [hrun] at hnone
      cases hnone
    refine ⟨by simp [hn], ?_⟩
    rw [playedBy_reply, playedBy_called, if_neg (Ne.symm hn)]

/-- The number of the last program is that of the run whose answers are heard. -/
theorem Numbered.latest (h : Numbered enableVet s log) (hrun : s.transport.runs n = some r) :
    decide (s.transport.seq = n) = true ↔ ∀ i m, .ran i m ∈ log → m ≤ n := by
  obtain ⟨hpos, hle⟩ := (h.fresh n).mp (Option.isSome_of_eq_some hrun)
  rw [decide_eq_true_iff]
  constructor
  · rintro rfl i m hran
    obtain ⟨r', hr', _⟩ := Option.map_eq_some_iff.mp ((h.ran i m).mp hran)
    exact ((h.fresh m).mp (Option.isSome_of_eq_some hr')).2
  · intro hlast
    obtain ⟨r', hr'⟩ := Option.isSome_iff_exists.mp ((h.fresh s.transport.seq).mpr ⟨by omega, le_rfl⟩)
    exact le_antisymm (hlast r'.output _ ((h.ran _ _).mpr (by rw [hr', Option.map_some]))) hle

theorem step_new (hnone : s.transport.runs n = none) (hs : s.step a = some s') (hrun : s'.transport.runs n = some r) :
    ∃ index, a = .onRun index ∧ r.awaited = .compile := by
  have hkill : ∀ index, (s.onKill index).transport.runs n = none := by
    intro index
    rw [← Option.map_eq_none_iff, onKill_outputs, hnone, Option.map_none]
  cases a with
  | onRun index =>
    obtain rfl := Option.some.inj hs
    rw [HTTPPage.onRun_runs, Function.update_apply] at hrun
    split_ifs at hrun
    · obtain rfl := Option.some.inj hrun
      exact ⟨index, rfl, rfl⟩
    · rw [hkill index] at hrun
      cases hrun
  | onKill index =>
    obtain rfl := Option.some.inj hs
    rw [hkill index] at hrun
    cases hrun
  | reply cur reply room =>
    obtain ⟨_, r₀, x, hrun₀, _, rfl⟩ := HTTPPage.reply_eq_some.mp hs
    have hsame := output_outputs (x := x) hrun₀ n
    rw [hnone, hrun] at hsame
    cases hsame

theorem story_step (hnumbered : Numbered enableVet s log)
    (h : ∀ n r, s.transport.runs n = some r → Story enableVet s.transport.stack n log r.awaited) (hs : s.step a = some s') :
    ∀ n r, s'.transport.runs n = some r → Story enableVet s'.transport.stack n (s.watch a s' log) r.awaited := by
  intro n r' hrun'
  rw [HTTPPage.step_stack hs]
  cases hrun : s.transport.runs n with
  | some r =>
    obtain ⟨_, hle⟩ := (hnumbered.fresh n).mp (Option.isSome_of_eq_some hrun)
    obtain ⟨r'', hrun'', _, hstep⟩ := HTTPPage.step_run hs hrun hle
    obtain rfl := Option.some.inj (hrun'.symm.trans hrun'')
    rcases hstep with ⟨hopen, hquiet, hawaited⟩ | ⟨reply, room, writes, hroom, hx, hentries⟩
    · exact (h n r hrun).quiet hopen hquiet hawaited
    · rw [HTTPPage.watch, hentries]
      rw [hnumbered.enableVet] at hx
      exact (h n r hrun).receive (hnumbered.latest hrun) hroom hx
  | none =>
    obtain ⟨index, rfl, hcompile⟩ := step_new hrun hs hrun'
    obtain ⟨hopen, hplayed⟩ := hnumbered.unheard n hrun
    rw [hcompile]
    refine .asked (fun reply hmem => ?_) ?_
    · rcases List.mem_append.mp hmem with hold | hnew
      · exact hopen reply hold
      · simp [HTTPPage.entries, HTTPPage.mem_killEntries] at hnew
    · rw [HTTPPage.watch, playedBy_append, hplayed]
      simp [HTTPPage.entries, HTTPPage.playedBy_killEntries]

theorem told_of_reach {stack : ℕ}
    (h : Reach (observe HTTPPage.step HTTPPage.watch) anyStep (.start enableVet stack, []) (s, log)) :
    Numbered enableVet s log ∧ ∀ n r, s.transport.runs n = some r → Story enableVet s.transport.stack n log r.awaited :=
  Reach.invariant
    (fun x => Numbered enableVet x.1 x.2 ∧
      ∀ n r, x.1.transport.runs n = some r → Story enableVet x.1.transport.stack n x.2 r.awaited)
    ⟨numbered_start enableVet stack, fun n r hrun => by cases hrun⟩ (fun x a y _ hi _ hs => by
      obtain ⟨hstep, hlog⟩ := observe_eq_some.mp hs
      rw [hlog]
      exact ⟨numbered_step hi.1 hstep, story_step hi.1 hi.2 hstep⟩) h

end

/-- In every run of the playgrounds of a window, whatever is clicked, answered and timed out, and in
whatever order: the callback of each program is told its story, besides what `Kill` tells it. If
`/compile` has answered and no other program had been run by then, it is told what the answer says, in
its order, from `start` to the end; the rest is left out by a `Kill` that comes when it has begun, by
more events in a row without a delay than the stack has room for, and, all of it, by a `null` answer of
`/vet`. It is told nothing if another program had been run, and an error if there is no answer. -/
theorem played_in_order (enableVet : Bool) (s : HTTPPage) (log : List PlayEntry) (h : HTTPPage.Logged enableVet s log) :
    (∀ i n, .ran i n ∈ log →
        ∃ r, s.transport.runs n = some r ∧ r.output = i ∧ Story enableVet s.transport.stack n log r.awaited) ∧
      ∀ n, (∀ i, .ran i n ∉ log) → playedBy n log = [] := by
  obtain ⟨stack, h⟩ := h
  obtain ⟨hnumbered, hstory⟩ := told_of_reach h
  refine ⟨fun i n hran => ?_, fun n hnot => ?_⟩
  · obtain ⟨r, hrun, houtput⟩ := Option.map_eq_some_iff.mp ((hnumbered.ran i n).mp hran)
    exact ⟨r, hrun, houtput, hstory n r hrun⟩
  · refine (hnumbered.unheard n (Option.eq_none_iff_forall_ne_some.mpr fun r hrun => hnot r.output ?_)).2
    rw [hnumbered.ran, hrun, Option.map_some]

def demoAnswer (vetOK : Bool) : CompileData where
  errors := []
  events :=
    [{ kind := .stdout, message := "a<b".toList, delay := 0 }, { kind := .stderr, message := "c".toList, delay := 5 }]
  status := 0
  isTest := false
  testsFailed := 0
  vetErrors := []
  vetOK := vetOK

/-- The first program is answered when another one has been run, in another playground; the third one
is replaced while it waits for vet, and is heard all the same until the stack is full. The fifth is
answered `null` by vet. -/
def demoReplayActions : List HTTPPage.Action :=
  [.onRun 0, .onRun 1, .reply 1 (.compiled (some (demoAnswer true))) 9, .reply 2 (.compiled (some (demoAnswer true))) 9,
    .onRun 0, .reply 3 (.compiled (some (demoAnswer false))) 9, .onRun 0, .reply 3 (.vetted (some "printf".toList)) 2,
    .reply 4 .failed 9, .reply 2 .timeout 9, .onKill 1, .onRun 1, .reply 5 (.compiled (some (demoAnswer false))) 9,
    .reply 5 (.vetted none) 9]

theorem demoReplayActions_enabled :
    (runActions (observe HTTPPage.step HTTPPage.watch) (HTTPPage.start true 2, []) demoReplayActions).isSome := by decide

def demoReplay : HTTPPage × List PlayEntry :=
  (runActions (observe HTTPPage.step HTTPPage.watch) (HTTPPage.start true 2, []) demoReplayActions).get
    demoReplayActions_enabled

theorem demoReplay_logged : HTTPPage.Logged true demoReplay.1 demoReplay.2 :=
  ⟨2, Reach.of_runActions (t := demoReplay) (Option.some_get _).symm⟩

/-- Of the third program's story the last event and the end are left out. -/
theorem played_in_order_demo : ((demoReplay.1.transport.runs 3).map HTTPRun.awaited = some .thrown ∧
      (demoReplay.1.transport.runs 5).map HTTPRun.awaited = some .thrown) ∧
    (∀ i n, .ran i n ∈ demoReplay.2 → ∃ r, demoReplay.1.transport.runs n = some r ∧ r.output = i ∧
        Story true demoReplay.1.transport.stack n demoReplay.2 r.awaited) ∧
      ∀ n, (∀ i, .ran i n ∉ demoReplay.2) → playedBy n demoReplay.2 = [] :=
  ⟨by decide, played_in_order true demoReplay.1 demoReplay.2 demoReplay_logged⟩

end HalfMesh.Slides
