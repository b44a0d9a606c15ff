import HalfMesh.Demo.Cleanup

/-! Signals to a demo. The first one cancels the script and the function returns, the second one ends
the process at once; without any the function waits for nothing but its script. -/
namespace HalfMesh.Demo
open HalfMesh.Foundations
set_option autoImplicit false
set_option maxHeartbeats 250000
set_option maxRecDepth 120000

variable {δ ε : Type} {env : Env δ} {cwd₀ : δ} {entries₀ : δ → Entry} {s s' t : Shell δ ε}

/-! ## Counting -/

def Handler.received : Handler → ℕ
  | .first => 0
  | .cancel | .second => 1
  | .exit => 2

structure Counted (s : Shell δ ε) : Prop where
  received : s.handler.received + (if s.signalChan then 1 else 0) ≤ s.signals
  woken : 0 < s.signals → s.signalChan = true ∨ s.handler ≠ .first
  ctxDone : s.handler = .second → s.ctxDone = true
  exited : s.exited = true → s.handler = .exit

theorem counted_enter (cwd₀ : δ) (entries₀ : δ → Entry) : Counted (Shell.enter cwd₀ entries₀ : Shell δ ε) where
  received := le_rfl
  woken h := absurd h (lt_irrefl 0)
  ctxDone h := by cases h
  exited h := by cases h

/-- What the goroutine and its channel have to do with. -/
def Shell.watched (s : Shell δ ε) : Handler × Bool × Bool × Bool × ℕ :=
  (s.handler, s.signalChan, s.ctxDone, s.exited, s.signals)

theorem Counted.congr (h : Counted s) (hsame : s'.watched = s.watched) : Counted s' := by
  simp only [Shell.watched, Prod.mk.injEq] at hsame
  obtain ⟨hhandler, hchan, hctx, hexited, hsignals⟩ := hsame
  refine ⟨?_, ?_, ?_, ?_⟩
  · rw [hhandler, hchan, hsignals]
    exact h.received
  · rw [hhandler, hchan, hsignals]
    exact h.woken
  · rw [hhandler, hctx]
    exact h.ctxDone
  · rw [hhandler, hexited]
    exact h.exited

theorem Counted.signal (h : Counted s) : Counted { s with signalChan := true, signals := s.signals + 1 } := by
  refine ⟨?_, fun _ => .inl rfl, h.ctxDone, h.exited⟩
  have hreceived := h.received
  show s.handler.received + 1 ≤ s.signals + 1
  split_ifs at hreceived <;> omega

theorem Counted.handle (h : Counted s) (hs : s.handle = some s') : Counted s' := by
  have hreceived := h.received
  unfold Shell.handle at hs
  split at hs
  · next hhandler =>
    obtain ⟨hchan, hs⟩ := Option.ite_none_right_eq_some.mp hs
    obtain rfl := Option.some.inj hs
    rw [hhandler, hchan] at hreceived
    refine ⟨hreceived, fun _ => .inr (by simp), fun hsecond => (by cases hsecond), fun hexited => ?_⟩
    rw [h.exited hexited] at hhandler
    cases hhandler
  · next hhandler =>
    obtain rfl := Option.some.inj hs
    rw [hhandler] at hreceived
    refine ⟨hreceived, fun _ => .inr (by simp), fun _ => rfl, fun hexited => ?_⟩
    rw [h.exited hexited] at hhandler
    cases hhandler
  · next hhandler =>
    obtain ⟨hchan, hs⟩ := Option.ite_none_right_eq_some.mp hs
    obtain rfl := Option.some.inj hs
    rw [hhandler, hchan] at hreceived
    exact ⟨hreceived, fun _ => .inr (by simp), fun hsecond => (by cases hsecond), fun _ => rfl⟩
  · next hhandler =>
    obtain rfl := Option.some.inj hs
    exact ⟨hreceived, h.woken, h.ctxDone, fun _ => hhandler⟩

def Handler.left : Handler → ℕ
  | .first => 4
  | .cancel => 3
  | .second => 2
  | .exit => 1

def Shell.left (s : Shell δ ε) : ℕ :=
  2 * s.main.left + (if s.exited then 0 else s.handler.left) + if s.child = .running then 1 else 0

theorem left_handle (hexited : s.exited = false) (hs : s.handle = some s') : s'.left < s.left := by
  unfold Shell.handle at hs
  split at hs
  · next hhandler =>
    obtain ⟨_, hs⟩ := Option.ite_none_right_eq_some.mp hs
    obtain rfl := Option.some.inj hs
    simp [Shell.left, hexited, hhandler, Handler.left]
  · next hhandler =>
    obtain rfl := Option.some.inj hs
    simp [Shell.left, hexited, hhandler, Handler.left]
  · next hhandler =>
    obtain ⟨_, hs⟩ := Option.ite_none_right_eq_some.mp hs
    obtain rfl := Option.some.inj hs
    simp [Shell.left, hexited, hhandler, Handler.left]
  · next hhandler =>
    obtain rfl := Option.some.inj hs
    simp [Shell.left, hexited, hhandler, Handler.left]

theorem fail_eq {c : Call} (ht : s.fail c = some t) : t = s := by
  cases c with
  | wait => exact (Option.some.inj (Option.ite_none_right_eq_some.mp ht).2).symm
  | chdir | create | writeString | start => exact (Option.some.inj ht).symm

variable [DecidableEq δ]

theorem watched_succeed {c : Call} (ht : s.succeed env c = some t) : t.watched = s.watched := by
  cases c with
  | chdir | writeString =>
    obtain rfl := Option.some.inj ht
    rfl
  | start =>
    obtain ⟨_, ht⟩ := Option.ite_none_left_eq_some.mp ht
    obtain rfl := Option.some.inj ht
    rfl
  | create | wait =>
    obtain ⟨_, ht⟩ := Option.ite_none_right_eq_some.mp ht
    obtain rfl := Option.some.inj ht
    rfl

theorem watched_answer {err : Option ε} (hs : s.answer env err = some s') : s'.watched = s.watched := by
  obtain ⟨c, _, hs⟩ := Option.bind_eq_some_iff.mp hs
  obtain ⟨t, ht, rfl⟩ := Option.map_eq_some_iff.mp hs
  cases err with
  | none =>
    have hsame : t.watched = s.watched := watched_succeed ht
    exact hsame
  | some e =>
    obtain rfl := fail_eq ht
    rfl

/-- The deferred calls have to do with neither the goroutine nor the child. -/
theorem carryOut_keeps {d : Deferred} (ht : s.carryOut env d = some t) : t.watched = s.watched ∧ t.child = s.child := by
  cases d with
  | chdir =>
    obtain ⟨_, _, rfl⟩ := Option.map_eq_some_iff.mp ht
    exact ⟨rfl, rfl⟩
  | remove =>
    obtain ⟨_, ht⟩ := Option.ite_none_right_eq_some.mp ht
    obtain rfl := Option.some.inj ht
    exact ⟨rfl, rfl⟩
  | close | signal | killGroup =>
    obtain rfl := Option.some.inj ht
    exact ⟨rfl, rfl⟩

theorem unwind_keeps {err : Option ε} (hs : s.unwind env err = some s') :
    s'.watched = s.watched ∧ s'.child = s.child ∧ s'.main.left < s.main.left := by
  obtain ⟨x, hmain, hs⟩ := Option.bind_eq_some_iff.mp hs
  obtain ⟨t, ht, rfl⟩ := Option.map_eq_some_iff.mp hs
  have hleft := Frame.left_unwind hmain
  cases err with
  | none =>
    obtain ⟨hwatched, hchild⟩ := carryOut_keeps ht
    exact ⟨hwatched, hchild, hleft⟩
  | some e =>
    obtain rfl := Option.some.inj ht
    exact ⟨rfl, rfl, hleft⟩

theorem counted_step {a : Shell.Action δ ε} (h : Counted s) (hs : s.step env a = some s') : Counted s' := by
  obtain ⟨_, hs⟩ := Option.ite_none_left_eq_some.mp hs
  cases a with
  | signal =>
    obtain rfl := Option.some.inj hs
    exact h.signal
  | handle => exact h.handle hs
  | answer err => exact h.congr (watched_answer hs)
  | advance =>
    obtain ⟨main, _, rfl⟩ := Option.map_eq_some_iff.mp hs
    exact h.congr rfl
  | unwind err => exact h.congr (unwind_keeps hs).1
  | script d entry =>
    obtain ⟨_, hs⟩ := Option.ite_none_left_eq_some.mp hs
    obtain rfl := Option.some.inj hs
    exact h.congr rfl
  | kill | ends =>
    obtain ⟨_, hs⟩ := Option.ite_none_right_eq_some.mp hs
    obtain rfl := Option.some.inj hs
    exact h.congr rfl

theorem counted_of_reach (h : Reach (Shell.step env) anyStep (Shell.enter cwd₀ entries₀) s) : Counted s :=
  Reach.invariant Counted (counted_enter cwd₀ entries₀) (fun _ _ _ _ hi _ hs => counted_step hi hs) h

/-- The directory of the demo is `true`, and `$PWD` is `false`. -/
def demoEnv : Env Bool where
  base := true
  pwd := some false

/-- Up to the running script. -/
def demoStart : List (Shell.Action Bool String) :=
  [.advance, .answer none, .answer none, .advance, .advance, .answer none, .answer none, .advance, .advance]

/-- A signal stops the script, and the deferred signals find nobody. -/
def demoStop : List (Shell.Action Bool String) :=
  demoStart ++ [.signal, .handle, .handle, .kill, .answer (some "signal: killed"), .unwind (some "no such process"),
    .unwind (some "process already finished"), .unwind none, .unwind none, .unwind none]

theorem demoStop_enabled : (runActions (Shell.step demoEnv) (.enter false fun _ => .absent) demoStop).isSome := by decide

def demoShell : Shell Bool String :=
  (runActions (Shell.step demoEnv) (.enter false fun _ => .absent) demoStop).get demoStop_enabled

theorem demoShell_reached : Reach (Shell.step demoEnv) anyStep (.enter false fun _ => .absent) demoShell :=
  Reach.of_runActions (Option.some_get _).symm

/-- After two signals the script is left where it was, and so is the process. -/
example : (runActions (Shell.step demoEnv) (.enter false fun _ => .absent)
    (demoStart ++ [.signal, .handle, .signal, .handle, .handle, .handle])).map
      (fun s => (s.exited, s.entries true, s.cwd, s.child)) = some (true, .file, true, .running) := by decide

/-! ## Coming to an end -/

/-- What the process does of itself: neither a signal nor the script. -/
def OfItself (_ : Shell δ ε) : Shell.Action δ ε → Prop
  | .handle | .answer _ | .advance | .unwind _ | .kill => True
  | .signal | .script .. | .ends _ => False

theorem left_answer {err : Option ε} (hs : s.answer env err = some s') : s'.left < s.left := by
  have hwatched := watched_answer hs
  obtain ⟨c, hcall, hs⟩ := Option.bind_eq_some_iff.mp hs
  obtain ⟨t, ht, rfl⟩ := Option.map_eq_some_iff.mp hs
  have hmain := Frame.left_answer hcall err
  simp only [Shell.watched, Prod.mk.injEq] at hwatched
  obtain ⟨hhandler, _, _, hexited, _⟩ := hwatched
  simp only [Shell.left, hhandler, hexited]
  split_ifs <;> omega

theorem left_unwind {err : Option ε} (hs : s.unwind env err = some s') : s'.left < s.left := by
  obtain ⟨hwatched, hchild, hmain⟩ := unwind_keeps hs
  simp only [Shell.watched, Prod.mk.injEq] at hwatched
  obtain ⟨hhandler, _, _, hexited, _⟩ := hwatched
  simp only [Shell.left, hchild, hhandler, hexited]
  omega

theorem left_step {a : Shell.Action δ ε} (hok : OfItself s a) (hs : s.step env a = some s') : s'.left < s.left := by
  obtain ⟨hexited, hs⟩ := Option.ite_none_left_eq_some.mp hs
  rw [Bool.not_eq_true] at hexited
  cases a with
  | signal | script | ends => cases hok
  | handle => exact left_handle hexited hs
  | answer err => exact left_answer hs
  | advance =>
    obtain ⟨main, hmain, rfl⟩ := Option.map_eq_some_iff.mp hs
    have hleft := Frame.left_advance hmain
    simp only [Shell.left]
    omega
  | unwind err => exact left_unwind hs
  | kill =>
    obtain ⟨⟨_, hchild⟩, hs⟩ := Option.ite_none_right_eq_some.mp hs
    obtain rfl := Option.some.inj hs
    simp [Shell.left, hchild]

/-- Where nothing happens of itself, the goroutine waits for a signal. -/
theorem handle_of_stuck (hexited : s.exited = false) (hstuck : Stuck (Shell.step env) OfItself s) :
    s.signalChan = false ∧ (s.handler = .first ∨ s.handler = .second) := by
  have hnone := hstuck .handle trivial
  rw [Shell.step, if_neg (by simp [hexited])] at hnone
  cases hhandler : s.handler with
  | first => simpa [Shell.handle, hhandler] using hnone
  | second => simpa [Shell.handle, hhandler] using hnone
  | cancel | exit => simp [Shell.handle, hhandler] at hnone

/-- Where nothing happens of itself, no call but `Wait` is left to come back. -/
theorem call_of_stuck [Inhabited ε] (hexited : s.exited = false)
    (hstuck : Stuck (Shell.step env) OfItself s) {c : Call} (hcall : s.main.call = some c) :
    c = .wait ∧ s.child ≠ .exited true ∧ s.child ≠ .exited false := by
  have hnone := hstuck (.answer (some default)) trivial
  rw [Shell.step, if_neg (by simp [hexited])] at hnone
  simp only [Shell.answer, hcall, Option.bind_some] at hnone
  cases c with
  | chdir | create | writeString | start => simp [Shell.fail] at hnone
  | wait =>
    refine ⟨rfl, fun hchild => ?_, fun hchild => ?_⟩ <;> simp [Shell.fail, hchild] at hnone

theorem stuck_cases [Inhabited ε] (htidy : Tidy env cwd₀ entries₀ s) (hcounted : Counted s)
    (hstuck : Stuck (Shell.step env) OfItself s) :
    s.exited = true ∨ (∃ r, s.main.returned = some r) ∨
      (s.main.call = some .wait ∧ s.child = .running ∧ s.signals = 0) := by
  cases hexited : s.exited with
  | true => exact .inl rfl
  | false =>
    obtain ⟨hchan, hwaits⟩ := handle_of_stuck hexited hstuck
    refine .inr ?_
    cases hcall : s.main.call with
    | none =>
      refine .inl (Frame.stuck_cases hcall ?_ ?_)
      · have hnone := hstuck .advance trivial
        rw [Shell.step, if_neg (by simp [hexited])] at hnone
        exact Option.map_eq_none_iff.mp hnone
      · have hnone := hstuck (.unwind (some default)) trivial
        rw [Shell.step, if_neg (by simp [hexited])] at hnone
        rw [Option.eq_none_iff_forall_ne_some]
        intro x hx
        simp [Shell.unwind, hx] at hnone
    | some c =>
      obtain ⟨rfl, htrue, hfalse⟩ := call_of_stuck hexited hstuck hcall
      obtain ⟨hresult, _⟩ := Frame.call_eq_some.mp hcall
      have hstarted : s.child ≠ .notStarted := by
        rw [Ne, (htidy.body hresult).child, (at_call htidy.placed hcall).1]
        decide
      have hrunning : s.child = .running := by
        cases hchild : s.child with
        | running => rfl
        | notStarted => exact absurd hchild hstarted
        | exited ok => cases ok <;> contradiction
      refine .inr ⟨rfl, hrunning, ?_⟩
      have hfirst : s.handler = .first := by
        refine hwaits.resolve_right fun hsecond => ?_
        have hnone := hstuck .kill trivial
        rw [Shell.step, if_neg (by simp [hexited])] at hnone
        simp [hcounted.ctxDone hsecond, hrunning] at hnone
      by_contra hsignals
      rcases hcounted.woken (Nat.pos_of_ne_zero hsignals) with hfull | hmoved
      · rw [hchan] at hfull
        cases hfull
      · exact hmoved hfirst

/-- Left to itself, from whatever state it has come to, the process soon stands still: it has exited, or
`RunShellScript` has returned, or no signal has come and the script still runs. -/
theorem script_ends [Inhabited ε] (env : Env δ) (cwd₀ : δ) (entries₀ : δ → Entry) (s : Shell δ ε)
    (h : Reach (Shell.step env) anyStep (Shell.enter cwd₀ entries₀) s) :
    (∀ run : ℕ → Shell δ ε, run 0 = s → ¬ ∀ n, ∃ a, OfItself (run n) a ∧ (run n).step env a = some (run (n + 1))) ∧
    ∀ t, Reach (Shell.step env) OfItself s t → Stuck (Shell.step env) OfItself t →
      t.exited = true ∨ (∃ r, t.main.returned = some r) ∨
        (t.main.call = some .wait ∧ t.child = .running ∧ t.signals = 0) := by
  refine ⟨fun run _ hrun => ?_, fun t ht hstuck => ?_⟩
  · have hdrop : ∀ (u : Shell δ ε) a u', OfItself u a → u.step env a = some u' → u'.left < u.left :=
      fun _ _ _ hok hs => left_step hok hs
    exact not_forever hdrop run hrun
  · have hreach := h.trans (ht.mono fun _ _ _ => trivial)
    exact stuck_cases (tidy_of_reach hreach) (counted_of_reach hreach) hstuck

theorem script_ends_demo :
    (∀ run : ℕ → Shell Bool String, run 0 = demoShell →
      ¬ ∀ n, ∃ a, OfItself (run n) a ∧ (run n).step demoEnv a = some (run (n + 1))) ∧
    ∀ t, Reach (Shell.step demoEnv) OfItself demoShell t → Stuck (Shell.step demoEnv) OfItself t →
      t.exited = true ∨ (∃ r, t.main.returned = some r) ∨
        (t.main.call = some .wait ∧ t.child = .running ∧ t.signals = 0) :=
  script_ends demoEnv false (fun _ => .absent) demoShell demoShell_reached

end HalfMesh.Demo
