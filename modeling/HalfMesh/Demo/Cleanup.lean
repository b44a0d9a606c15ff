import HalfMesh.Demo.Shell
import HalfMesh.Foundations.Progress
import Mathlib.Data.List.Infix

/-! What `RunShellScript` leaves behind. However its calls fail and whenever signals come, the deferred
calls run before it returns, and what they do not fail to clean up is cleaned up; only a second signal
can keep them from running. -/
namespace HalfMesh.Demo
open HalfMesh.Foundations
set_option autoImplicit false
set_option maxHeartbeats 250000
set_option maxRecDepth 120000

/-! ## Places in the body -/

/-- What follows a call. -/
def rest : Call → List (Stmt Call Deferred)
  | .chdir => [.call .create, .defer .close, .defer .remove, .call .writeString, .call .start, .defer .signal,
      .defer .killGroup, .call .wait]
  | .create => [.defer .close, .defer .remove, .call .writeString, .call .start, .defer .signal, .defer .killGroup,
      .call .wait]
  | .writeString => [.call .start, .defer .signal, .defer .killGroup, .call .wait]
  | .start => [.defer .signal, .defer .killGroup, .call .wait]
  | .wait => []

/-- What is deferred before a call. -/
def held : Call → List Deferred
  | .chdir | .create => [.chdir]
  | .writeString | .start => [.remove, .close, .chdir]
  | .wait => [.killGroup, .signal, .remove, .close, .chdir]

/-- What is still deferred when a deferred call runs. -/
def heldBelow : Deferred → List Deferred
  | .chdir => []
  | .close => [.chdir]
  | .remove => [.close, .chdir]
  | .signal => [.remove, .close, .chdir]
  | .killGroup => [.signal, .remove, .close, .chdir]

variable {ε : Type} {f : Frame Call Deferred ε}

theorem body_mem_tails (h : Frame.Placed runShellScript f) : f.body ∈ runShellScript.tails := by
  obtain ⟨done, hprogram, _⟩ := h
  rw [List.mem_tails, hprogram]
  exact List.suffix_append done f.body

theorem deferred_eq (h : Frame.Placed runShellScript f) (hresult : f.result = none) :
    f.deferred = (Frame.deferredIn (runShellScript.take (runShellScript.length - f.body.length))).reverse := by
  obtain ⟨done, hprogram, _, hrunning⟩ := h
  rw [hrunning hresult, hprogram]
  simp

theorem at_call (h : Frame.Placed runShellScript f) {c : Call} (hcall : f.call = some c) :
    f.body = .call c :: rest c ∧ f.deferred = held c := by
  obtain ⟨hresult, l, hbody⟩ := Frame.call_eq_some.mp hcall
  have hrest : ∀ body ∈ runShellScript.tails, body.head? = some (.call c) → body = .call c :: rest c := by
    cases c <;> decide
  have hplace := hrest f.body (body_mem_tails h) (by rw [hbody]; rfl)
  refine ⟨hplace, ?_⟩
  rw [deferred_eq h hresult, hplace]
  cases c <;> rfl

theorem at_end (h : Frame.Placed runShellScript f) (hresult : f.result = none) (hbody : f.body = []) :
    f.deferred = [.killGroup, .signal, .remove, .close, .chdir] := by
  rw [deferred_eq h hresult, hbody]
  rfl

theorem at_deferred (h : Frame.Placed runShellScript f) {d : Deferred} {l : List Deferred} (hd : f.deferred = d :: l) :
    l = heldBelow d := by
  obtain ⟨done, hprogram, hsuffix, _⟩ := h
  have hall : f.deferred <:+ (Frame.deferredIn runShellScript).reverse := by
    refine hsuffix.trans ?_
    rw [hprogram, Frame.deferredIn, Frame.deferredIn, List.filterMap_append, List.reverse_append]
    exact List.suffix_append ..
  have hbelow : ∀ deferred ∈ (Frame.deferredIn runShellScript).reverse.tails, deferred.head? = some d →
      deferred = d :: heldBelow d := by
    cases d <;> decide
  have hplace := hbelow f.deferred ((List.mem_tails _ _).mpr hall) (by rw [hd]; rfl)
  exact (List.cons.inj (hd.symm.trans hplace)).2

/-! ## What holds at each place -/

section
variable {δ : Type} {env : Env δ} {cwd₀ : δ} {entries₀ : δ → Entry} {s s' : Shell δ ε} {r : Option ε}

/-- While the body runs: what it will not do any more has been done. -/
structure InBody (env : Env δ) (cwd₀ : δ) (entries₀ : δ → Entry) (s : Shell δ ε) : Prop where
  cwd : s.cwd = if .call .chdir ∈ s.main.body then cwd₀ else env.base
  untouched : .call .create ∈ s.main.body → s.entries = entries₀ ∧ s.isOpen = false
  child : s.child = .notStarted ↔ .call .start ∈ s.main.body
  ended : .call .wait ∉ s.main.body → s.child = .exited true
  ignored : s.ignored = []

/-- While the deferred calls run: what is to be undone is still deferred. -/
structure Unwinding (env : Env δ) (cwd₀ : δ) (entries₀ : δ → Entry) (s : Shell δ ε) (r : Option ε) : Prop where
  cwd : .chdir ∉ s.main.deferred → .chdir ∉ s.ignored → ∀ d, env.pwd = some d → s.cwd = d
  stays : .chdir ∈ s.main.deferred ∨ .chdir ∈ s.ignored → s.cwd = env.base ∨ s.cwd = cwd₀
  once : .chdir ∈ s.main.deferred → .chdir ∉ s.ignored
  remove : .remove ∈ s.main.deferred → s.cwd = env.base
  removed : .remove ∉ s.main.deferred → .remove ∉ s.ignored → s.meddled = false →
    s.entries env.base = .absent ∨ s.entries = entries₀
  close : s.isOpen = true → .close ∈ s.main.deferred
  child : s.child ≠ .running
  ok : r = none → s.child = .exited true

structure Tidy (env : Env δ) (cwd₀ : δ) (entries₀ : δ → Entry) (s : Shell δ ε) : Prop where
  placed : Frame.Placed runShellScript s.main
  body : s.main.result = none → InBody env cwd₀ entries₀ s
  unwinding : ∀ r, s.main.result = some r → Unwinding env cwd₀ entries₀ s r
  signalled : s.signalled = false

/-- A running child means that the function waits for it, or is about to. -/
theorem Tidy.of_running (h : Tidy env cwd₀ entries₀ s) (hchild : s.child = .running) :
    s.main.result = none ∧ .call .create ∉ s.main.body ∧ .call .start ∉ s.main.body ∧ .call .wait ∈ s.main.body := by
  cases hresult : s.main.result with
  | some r => exact absurd hchild (h.unwinding r hresult).child
  | none =>
    have hbody := h.body hresult
    have hstart : .call .start ∉ s.main.body := fun hmem => by
      rw [hbody.child.mpr hmem] at hchild
      cases hchild
    have hcreate : ∀ body ∈ runShellScript.tails, .call .create ∈ body → .call .start ∈ body := by decide
    refine ⟨rfl, fun hmem => hstart (hcreate _ (body_mem_tails h.placed) hmem), hstart, ?_⟩
    by_contra hwait
    rw [hbody.ended hwait] at hchild
    cases hchild

theorem tidy_enter (env : Env δ) (cwd₀ : δ) (entries₀ : δ → Entry) :
    Tidy env cwd₀ entries₀ (Shell.enter cwd₀ entries₀ : Shell δ ε) where
  placed := Frame.placed_enter _
  body _ := ⟨rfl, fun _ => ⟨rfl, rfl⟩, ⟨fun _ => (by decide : .call .start ∈ runShellScript), fun _ => rfl⟩,
    fun hwait => absurd (by decide : .call .wait ∈ runShellScript) hwait, rfl⟩
  unwinding r hr := by cases hr
  signalled := rfl

/-! ## Steps of the function -/

/-- An error leaves what has been done, and `Wait` has waited. -/
theorem InBody.fail {c : Call} {e : ε} {t : Shell δ ε} (h : InBody env cwd₀ entries₀ s)
    (hbody : s.main.body = .call c :: rest c) (hdeferred : s.main.deferred = held c) (ht : s.fail c = some t) :
    t = s ∧ Unwinding env cwd₀ entries₀ { s with main := s.main.answer (some e) } (some e) := by
  obtain ⟨hcwd, huntouched, hchild, hended, hignored⟩ := h
  rw [hbody] at hcwd huntouched hchild
  have hself : t = s ∧ (c = .wait → s.child ≠ .running) := by
    cases c with
    | wait =>
      obtain ⟨hexited, ht⟩ := Option.ite_none_right_eq_some.mp ht
      refine ⟨(Option.some.inj ht).symm, fun _ hrunning => ?_⟩
      rw [hrunning] at hexited
      simp at hexited
    | chdir | create | writeString | start => exact ⟨(Option.some.inj ht).symm, fun hwait => by cases hwait⟩
  refine ⟨hself.1, ?_, ?_, ?_, ?_, ?_, ?_, ?_, fun hok => by cases hok⟩
  all_goals dsimp only [Frame.answer]
  all_goals try rw [hdeferred]
  · intro hmem
    cases c <;> exact absurd (by decide) hmem
  · intro _
    rw [hcwd]
    split_ifs
    · exact .inr rfl
    · exact .inl rfl
  · intro _
    rw [hignored]
    exact List.not_mem_nil
  · intro hmem
    cases c with
    | chdir | create => exact absurd hmem (by decide)
    | writeString | start | wait => simpa [rest] using hcwd
  · intro hmem _ _
    cases c with
    | chdir | create => exact .inr (huntouched (by decide)).1
    | writeString | start | wait => exact absurd (by decide) hmem
  · intro hopen
    cases c with
    | chdir | create =>
      rw [(huntouched (by decide)).2] at hopen
      cases hopen
    | writeString | start | wait => decide
  · cases c with
    | chdir | create | writeString | start =>
      rw [hchild.mpr (by decide)]
      decide
    | wait => exact hself.2 rfl

theorem Tidy.advance (h : Tidy env cwd₀ entries₀ s) {main : Frame Call Deferred ε} (hmain : s.main.advance = some main) :
    Tidy env cwd₀ entries₀ { s with main := main } := by
  have hplaced := h.placed.advance hmain
  obtain ⟨hresult, ⟨d, l, hbody, rfl⟩ | ⟨hbody, rfl⟩⟩ := Frame.advance_cases hmain
  · obtain ⟨hcwd, huntouched, hchild, hended, hignored⟩ := h.body hresult
    rw [hbody] at hcwd huntouched hchild hended
    simp only [List.mem_cons, reduceCtorEq, false_or] at hcwd huntouched hchild hended
    refine ⟨hplaced, fun _ => ⟨hcwd, huntouched, hchild, hended, hignored⟩, fun r hr => ?_, h.signalled⟩
    rw [show s.main.result = some r from hr] at hresult
    cases hresult
  · obtain ⟨hcwd, huntouched, hchild, hended, hignored⟩ := h.body hresult
    rw [hbody] at hcwd hended
    have hexited := hended (List.not_mem_nil)
    have hall := at_end h.placed hresult hbody
    refine ⟨hplaced, fun hr => (by cases hr), fun r hr => ?_, h.signalled⟩
    obtain rfl : none = r := Option.some.inj hr
    refine ⟨?_, fun _ => .inl hcwd, ?_, fun _ => hcwd, ?_, ?_, ?_, fun _ => hexited⟩
    all_goals dsimp only
    · rw [hall]
      exact fun hmem => absurd (by decide) hmem
    · rw [hignored]
      exact fun _ => List.not_mem_nil
    · rw [hall]
      exact fun hmem => absurd (by decide) hmem
    · rw [hall]
      exact fun _ => by decide
    · rw [hexited]
      decide

/-! ## Steps beside it -/

/-- The script ends, or is killed. -/
theorem Tidy.child (h : Tidy env cwd₀ entries₀ s) (hchild : s.child = .running) (ok : Bool) :
    Tidy env cwd₀ entries₀ { s with child := .exited ok } := by
  obtain ⟨hresult, _, hstart, hwait⟩ := h.of_running hchild
  refine ⟨h.placed, fun _ => ?_, fun r hr => ?_, h.signalled⟩
  · obtain ⟨hcwd, huntouched, _, _, hignored⟩ := h.body hresult
    exact ⟨hcwd, huntouched, by simp [hstart], fun hmem => absurd hwait hmem, hignored⟩
  · rw [show s.main.result = some r from hr] at hresult
    cases hresult

/-- What happens to files called `tmp.sh` once the script has been started. -/
theorem Tidy.script (h : Tidy env cwd₀ entries₀ s) (hchild : s.child ≠ .notStarted) (entries : δ → Entry) :
    Tidy env cwd₀ entries₀ { s with
      entries := entries, meddled := s.meddled || decide (s.child ≠ .running) } := by
  refine ⟨h.placed, fun hr => ?_, fun r hr => ?_, h.signalled⟩
  · obtain ⟨hcwd, _, hstarted, hended, hignored⟩ := h.body hr
    have hcreate : ∀ body ∈ runShellScript.tails, .call .create ∈ body → .call .start ∈ body := by decide
    refine ⟨hcwd, fun hmem => absurd ?_ hchild, hstarted, hended, hignored⟩
    exact hstarted.mpr (hcreate _ (body_mem_tails h.placed) hmem)
  · obtain ⟨hcwd, hstays, honce, hremove, _, hclose, hrunning, hok⟩ := h.unwinding r hr
    refine ⟨hcwd, hstays, honce, hremove, fun _ _ hmeddled => ?_, hclose, hrunning, hok⟩
    simp [hrunning] at hmeddled

/-- Nothing of the goroutine and its channel matters. -/
theorem Tidy.congr (h : Tidy env cwd₀ entries₀ s) (handler : Handler) (signalChan ctxDone exited : Bool) (signals : ℕ) :
    Tidy env cwd₀ entries₀ { s with
      handler := handler, signalChan := signalChan, ctxDone := ctxDone, exited := exited, signals := signals } := by
  refine ⟨h.placed, fun hr => ?_, fun r hr => ?_, h.signalled⟩
  · obtain ⟨hcwd, huntouched, hchild, hended, hignored⟩ := h.body hr
    exact ⟨hcwd, huntouched, hchild, hended, hignored⟩
  · obtain ⟨hcwd, hstays, honce, hremove, hremoved, hclose, hchild, hok⟩ := h.unwinding r hr
    exact ⟨hcwd, hstays, honce, hremove, hremoved, hclose, hchild, hok⟩

/-- The goroutine keeps to itself. -/
theorem handle_frame (hs : s.handle = some s') : s' = { s with
    handler := s'.handler, signalChan := s'.signalChan, ctxDone := s'.ctxDone, exited := s'.exited } := by
  unfold Shell.handle at hs
  split at hs
  · obtain ⟨_, hs⟩ := Option.ite_none_right_eq_some.mp hs
    obtain rfl := Option.some.inj hs
    rfl
  · obtain rfl := Option.some.inj hs
    rfl
  · obtain ⟨_, hs⟩ := Option.ite_none_right_eq_some.mp hs
    obtain rfl := Option.some.inj hs
    rfl
  · obtain rfl := Option.some.inj hs
    rfl

/-- A deferred call that fails leaves what it was to undo, and is remembered for it. -/
theorem Unwinding.ignore {d : Deferred} (h : Unwinding env cwd₀ entries₀ s r)
    (hdeferred : s.main.deferred = d :: heldBelow d) {main : Frame Call Deferred ε} (hmain : main.deferred = heldBelow d) :
    Unwinding env cwd₀ entries₀ { s.ignore d with main := main } r := by
  obtain ⟨hcwd, hstays, honce, hremove, hremoved, hclose, hchild, hok⟩ := h
  rw [hdeferred] at hcwd hstays honce hremove hremoved hclose
  refine ⟨?_, ?_, ?_, ?_, ?_, ?_, hchild, hok⟩
  all_goals dsimp only [Shell.ignore]
  all_goals try rw [hmain]
  all_goals try rw [List.mem_append, List.mem_singleton]
  · intro hmem hfailed
    cases d with
    | chdir => exact absurd (.inr rfl) hfailed
    | close | remove | signal | killGroup => exact absurd (by decide) hmem
  · intro _
    exact hstays (.inl (by cases d <;> decide))
  · intro hmem hfailed
    cases d with
    | chdir => exact absurd hmem (by decide)
    | close | remove | signal | killGroup => exact honce (by decide) (hfailed.resolve_right (by decide))
  · intro hmem
    cases d with
    | signal | killGroup => exact hremove (by decide)
    | chdir | close | remove => exact absurd hmem (by decide)
  · intro hmem hfailed hquiet
    cases d with
    | remove => exact absurd (.inr rfl) hfailed
    | chdir | close => exact hremoved (by decide) (fun hold => hfailed (.inl hold)) hquiet
    | signal | killGroup => exact absurd (by decide) hmem
  · intro hopen
    cases d with
    | close => cases hopen
    | chdir => exact absurd (hclose hopen) (by decide)
    | remove | signal | killGroup => decide

/-! ## Every step -/

variable [DecidableEq δ]

theorem succeed_cases {c : Call} {t : Shell δ ε} (ht : s.succeed env c = some t) :
    t.cwd = (if c = .chdir then env.base else s.cwd) ∧ (c = .chdir → t.entries = s.entries ∧ t.isOpen = s.isOpen) ∧
      t.child = (if c = .start then .running else s.child) ∧ (c = .wait → s.child = .exited true) ∧
      t.signalled = s.signalled ∧ t.ignored = s.ignored := by
  cases c with
  | chdir | writeString =>
    obtain rfl := Option.some.inj ht
    simp
  | create =>
    obtain ⟨_, ht⟩ := Option.ite_none_right_eq_some.mp ht
    obtain rfl := Option.some.inj ht
    simp
  | start =>
    obtain ⟨_, ht⟩ := Option.ite_none_left_eq_some.mp ht
    obtain rfl := Option.some.inj ht
    simp
  | wait =>
    obtain ⟨hexited, ht⟩ := Option.ite_none_right_eq_some.mp ht
    obtain rfl := Option.some.inj ht
    simp [hexited]

theorem InBody.succeed {c : Call} {t : Shell δ ε} (h : InBody env cwd₀ entries₀ s) (hbody : s.main.body = .call c :: rest c)
    (ht : s.succeed env c = some t) : InBody env cwd₀ entries₀ { t with main := s.main.answer none } := by
  have htail : (s.main.answer none).body = rest c := by rw [Frame.answer, hbody]; rfl
  obtain ⟨hcwd, huntouched, hchild, hended, hignored⟩ := h
  rw [hbody] at hcwd huntouched hchild
  obtain ⟨hto, hfiles, hstarted, hwaited, _, hsame⟩ := succeed_cases ht
  refine ⟨?_, ?_, ?_, ?_, hsame.trans hignored⟩
  all_goals dsimp only
  all_goals rw [htail]
  · rw [hto, hcwd]
    cases c <;> simp [rest]
  · intro hmem
    cases c with
    | chdir =>
      obtain ⟨hentries, hopen⟩ := hfiles rfl
      rw [hentries, hopen]
      exact huntouched (by decide)
    | create | writeString | start | wait => exact absurd hmem (by decide)
  · rw [hstarted]
    cases c with
    | start => simp [rest]
    | chdir | create | writeString | wait => simpa [rest] using hchild
  · intro hmem
    cases c with
    | wait => exact hstarted.trans (hwaited rfl)
    | chdir | create | writeString | start => exact absurd (by decide) hmem

theorem Tidy.answer (h : Tidy env cwd₀ entries₀ s) {err : Option ε} (hs : s.answer env err = some s') :
    Tidy env cwd₀ entries₀ s' := by
  obtain ⟨c, hcall, hs⟩ := Option.bind_eq_some_iff.mp hs
  obtain ⟨t, ht, rfl⟩ := Option.map_eq_some_iff.mp hs
  obtain ⟨hbody, hdeferred⟩ := at_call h.placed hcall
  obtain ⟨hresult, _⟩ := Frame.call_eq_some.mp hcall
  have hplaced := h.placed.answer hcall err
  have hin := h.body hresult
  cases err with
  | none =>
    obtain ⟨_, _, _, _, hsignalled, _⟩ := succeed_cases ht
    refine ⟨hplaced, fun _ => hin.succeed hbody ht, fun r hr => ?_, hsignalled.trans h.signalled⟩
    rw [show s.main.result = some r from hr] at hresult
    cases hresult
  | some e =>
    obtain ⟨rfl, hunwinding⟩ := hin.fail hbody hdeferred ht
    refine ⟨hplaced, fun hr => (by cases hr), fun r hr => ?_, h.signalled⟩
    obtain rfl : some e = r := Option.some.inj hr
    exact hunwinding

/-! ## The deferred calls -/

theorem carryOut_cases {d : Deferred} {t : Shell δ ε} (ht : s.carryOut env d = some t) :
    (if d = .chdir then env.pwd = some t.cwd else t.cwd = s.cwd) ∧
      (if d = .remove then (s.entries s.cwd = .file ∨ s.entries s.cwd = .emptyDir) ∧
        t.entries = Function.update s.entries s.cwd .absent else t.entries = s.entries) ∧
      t.isOpen = (if d = .close then false else s.isOpen) ∧ t.child = s.child ∧ t.ignored = s.ignored ∧
      t.meddled = s.meddled ∧ (s.child ≠ .running → t.signalled = s.signalled) := by
  cases d with
  | chdir =>
    obtain ⟨d', hd', rfl⟩ := Option.map_eq_some_iff.mp ht
    simp [hd']
  | remove =>
    obtain ⟨hentry, ht⟩ := Option.ite_none_right_eq_some.mp ht
    obtain rfl := Option.some.inj ht
    simp [hentry]
  | close =>
    obtain rfl := Option.some.inj ht
    simp
  | signal | killGroup =>
    obtain rfl := Option.some.inj ht
    simp only [reduceCtorEq, if_false, true_and]
    intro hchild
    simp [hchild]

theorem Unwinding.carryOut {d : Deferred} {t : Shell δ ε} (h : Unwinding env cwd₀ entries₀ s r)
    (hdeferred : s.main.deferred = d :: heldBelow d) (ht : s.carryOut env d = some t)
    {main : Frame Call Deferred ε} (hmain : main.deferred = heldBelow d) :
    Unwinding env cwd₀ entries₀ { t with main := main } r := by
  obtain ⟨hcwd, hstays, honce, hremove, hremoved, hclose, hchild, hok⟩ := h
  obtain ⟨hto, hentries, hopened, hsame, hignored, hmeddled, _⟩ := carryOut_cases ht
  rw [hdeferred] at hcwd hstays honce hremove hremoved hclose
  refine ⟨?_, ?_, ?_, ?_, ?_, ?_, ?_, ?_⟩
  all_goals dsimp only
  all_goals try rw [hmain]
  all_goals try rw [hignored]
  · intro hmem _ d' hpwd
    cases d with
    | chdir => exact (Option.some.inj (hpwd.symm.trans hto)).symm
    | close | remove | signal | killGroup => exact absurd (by decide) hmem
  · intro hstay
    cases d with
    | chdir => exact absurd (hstay.resolve_left (by decide)) (honce (by decide))
    | close | remove | signal | killGroup =>
      rw [show t.cwd = s.cwd from hto]
      exact hstays (.inl (by decide))
  · intro _
    exact honce (by cases d <;> decide)
  · intro hmem
    cases d with
    | signal | killGroup =>
      rw [show t.cwd = s.cwd from hto]
      exact hremove (by decide)
    | chdir | close | remove => exact absurd hmem (by decide)
  · intro hmem hfailed hquiet
    rw [hmeddled] at hquiet
    cases d with
    | remove =>
      have hgone : t.entries = Function.update s.entries s.cwd .absent := hentries.2
      rw [hgone, hremove (by decide)]
      exact .inl (Function.update_self ..)
    | chdir | close =>
      rw [show t.entries = s.entries from hentries]
      exact hremoved (by decide) hfailed hquiet
    | signal | killGroup => exact absurd (by decide) hmem
  · intro hopen
    rw [hopened] at hopen
    cases d with
    | close => cases hopen
    | chdir => exact absurd (hclose hopen) (by decide)
    | remove | signal | killGroup => decide
  · rw [hsame]
    exact hchild
  · rw [hsame]
    exact hok

theorem Tidy.unwind (h : Tidy env cwd₀ entries₀ s) {err : Option ε} (hs : s.unwind env err = some s') :
    Tidy env cwd₀ entries₀ s' := by
  obtain ⟨⟨d, main⟩, hmain, hs⟩ := Option.bind_eq_some_iff.mp hs
  obtain ⟨t, ht, rfl⟩ := Option.map_eq_some_iff.mp hs
  have hplaced := h.placed.unwind hmain
  obtain ⟨hresult, hdeferred, hf⟩ := Frame.unwind_eq_some.mp hmain
  have hbelow := at_deferred h.placed hdeferred
  obtain ⟨r, hr⟩ := Option.isSome_iff_exists.mp hresult
  have hunwinding := h.unwinding r hr
  have hsame : main.result = some r := by rw [hf]; exact hr
  have hnext : Unwinding env cwd₀ entries₀ { t with main := main } r ∧ t.signalled = s.signalled := by
    cases err with
    | none =>
      obtain ⟨_, _, _, _, _, _, hsignalled⟩ := carryOut_cases ht
      exact ⟨hunwinding.carryOut (hbelow ▸ hdeferred) ht hbelow, hsignalled hunwinding.child⟩
    | some e =>
      obtain rfl := Option.some.inj ht
      exact ⟨hunwinding.ignore (hbelow ▸ hdeferred) hbelow, rfl⟩
  refine ⟨hplaced, fun hnone => ?_, fun r' hr' => ?_, hnext.2.trans h.signalled⟩
  · rw [show main.result = none from hnone] at hsame
    cases hsame
  · obtain rfl : r = r' := Option.some.inj (hsame.symm.trans hr')
    exact hnext.1

theorem tidy_step {a : Shell.Action δ ε} (h : Tidy env cwd₀ entries₀ s) (hs : s.step env a = some s') :
    Tidy env cwd₀ entries₀ s' := by
  obtain ⟨_, hs⟩ := Option.ite_none_left_eq_some.mp hs
  cases a with
  | signal =>
    obtain rfl := Option.some.inj hs
    exact h.congr s.handler true s.ctxDone s.exited (s.signals + 1)
  | handle =>
    rw [handle_frame hs]
    exact h.congr s'.handler s'.signalChan s'.ctxDone s'.exited s.signals
  | answer err => exact h.answer hs
  | advance =>
    obtain ⟨main, hmain, rfl⟩ := Option.map_eq_some_iff.mp hs
    exact h.advance hmain
  | unwind err => exact h.unwind hs
  | kill =>
    obtain ⟨⟨_, hchild⟩, hs⟩ := Option.ite_none_right_eq_some.mp hs
    obtain rfl := Option.some.inj hs
    exact h.child hchild false
  | script d entry =>
    obtain ⟨hchild, hs⟩ := Option.ite_none_left_eq_some.mp hs
    obtain rfl := Option.some.inj hs
    exact h.script hchild _
  | ends ok =>
    obtain ⟨hchild, hs⟩ := Option.ite_none_right_eq_some.mp hs
    obtain rfl := Option.some.inj hs
    exact h.child hchild ok

theorem tidy_of_reach (h : Reach (Shell.step env) anyStep (Shell.enter cwd₀ entries₀) s) : Tidy env cwd₀ entries₀ s :=
  Reach.invariant (Tidy env cwd₀ entries₀) (tidy_enter env cwd₀ entries₀) (fun _ _ _ _ hi _ hs => tidy_step hi hs) h

/-! ## What cannot be cleaned up -/

/-- The script has ended, and unless somebody else removes it there is a directory with something in it
in the place of `tmp.sh`. -/
structure Blocked (env : Env δ) (s : Shell δ ε) : Prop where
  child : ∃ ok, s.child = .exited ok
  entry : s.meddled = false → s.entries env.base = .fullDir

/-- `os.Remove` takes a file or an empty directory. -/
theorem fullDir_carryOut {d : Deferred} {t : Shell δ ε} {dir : δ} (hfull : s.entries dir = .fullDir)
    (ht : s.carryOut env d = some t) : t.entries dir = .fullDir := by
  obtain ⟨_, hentries, _⟩ := carryOut_cases ht
  by_cases hd : d = .remove
  · rw [if_pos hd] at hentries
    obtain ⟨hentry, hgone⟩ := hentries
    rw [hgone, Function.update_of_ne, hfull]
    rintro rfl
    rw [hfull] at hentry
    simp at hentry
  · rw [if_neg hd] at hentries
    rw [hentries, hfull]

theorem Blocked.unwind (h : Blocked env s) {err : Option ε} (hs : s.unwind env err = some s') : Blocked env s' := by
  obtain ⟨x, _, hs⟩ := Option.bind_eq_some_iff.mp hs
  obtain ⟨t, ht, rfl⟩ := Option.map_eq_some_iff.mp hs
  cases err with
  | some e =>
    obtain rfl := Option.some.inj ht
    exact ⟨h.child, h.entry⟩
  | none =>
    have hcarry : s.carryOut env x.1 = some t := ht
    obtain ⟨_, _, _, hchild, _, hmeddled, _⟩ := carryOut_cases hcarry
    refine ⟨?_, fun hquiet => ?_⟩
    · dsimp only
      rw [hchild]
      exact h.child
    · exact (fullDir_carryOut (h.entry (hmeddled.symm.trans hquiet)) hcarry : t.entries env.base = .fullDir)

end
end HalfMesh.Demo
