import HalfMesh.Foundations.Defer
import HalfMesh.Foundations.Transition
import Mathlib.Logic.Function.Basic

/-! `RunShellScript` (`internal/demo/demo.go`), which the demos use to run their scripts: the function
itself, the goroutine beside it that waits for signals, the script, and the processes that the script
leaves running. The calls may fail, the deferred ones too, whose errors nobody looks at. -/
namespace HalfMesh.Demo
open HalfMesh.Foundations
set_option autoImplicit false
set_option maxHeartbeats 250000
set_option maxRecDepth 120000

inductive Call
  | chdir | create | writeString | start | wait
  deriving DecidableEq

inductive Deferred
  | chdir | close | remove | signal | killGroup
  deriving DecidableEq

/-- The body, from `cwd` on. -/
def runShellScript : List (Stmt Call Deferred) :=
  [.defer .chdir, .call .chdir, .call .create, .defer .close, .defer .remove, .call .writeString, .call .start,
    .defer .signal, .defer .killGroup, .call .wait]

/-- The goroutine: it has received no signal, or one, or is about to do what it received one for. -/
inductive Handler
  | first | cancel | second | exit
  deriving DecidableEq

inductive Child
  | notStarted | running
  | exited (ok : Bool)
  deriving DecidableEq

/-- What goes by the name `tmp.sh` in a directory. -/
inductive Entry
  | absent | file | emptyDir | fullDir
  deriving DecidableEq

/-- Directories are of type `δ`, errors of type `ε`. -/
structure Shell (δ ε : Type) where
  main : Frame Call Deferred ε
  handler : Handler
  /-- `signalChan` holds a signal. -/
  signalChan : Bool
  /-- `ctx` is cancelled. -/
  ctxDone : Bool
  /-- By `os.Exit(1)`. -/
  exited : Bool
  /-- The working directory of the process. -/
  cwd : δ
  /-- The `tmp.sh` of each directory. -/
  entries : δ → Entry
  /-- `tmpFile` is open. -/
  isOpen : Bool
  child : Child
  /-- A deferred signal has reached the running child. -/
  signalled : Bool
  /-- The deferred calls that have failed. -/
  ignored : List Deferred
  /-- A `tmp.sh` was changed after the script had ended, by a process that it has left running. -/
  meddled : Bool
  /-- The signals that have come so far. -/
  signals : ℕ

/-- Where `basePath` leads, and where `$PWD` does, if anywhere. -/
structure Env (δ : Type) where
  base : δ
  pwd : Option δ

namespace Shell
variable {δ ε : Type} [DecidableEq δ]

/-- Once the goroutine is under way. -/
def enter (cwd : δ) (entries : δ → Entry) : Shell δ ε where
  main := .enter runShellScript
  handler := .first
  signalChan := false
  ctxDone := false
  exited := false
  cwd := cwd
  entries := entries
  isOpen := false
  child := .notStarted
  signalled := false
  ignored := []
  meddled := false
  signals := 0

/-- What a call that comes back without an error has done, if it can: `Create` makes no file of a
directory, `Start` fails when `ctx` is cancelled, and `Wait` waits for the child and fails if the
child has. -/
def succeed (env : Env δ) (s : Shell δ ε) : Call → Option (Shell δ ε)
  | .chdir => some { s with cwd := env.base }
  | .create =>
    if s.entries s.cwd = .absent ∨ s.entries s.cwd = .file then
      some { s with entries := Function.update s.entries s.cwd .file, isOpen := true }
    else none
  | .writeString => some s
  | .start => if s.ctxDone then none else some { s with child := .running }
  | .wait => if s.child = .exited true then some s else none

/-- A call that fails has done nothing; `Wait` fails after the child has ended. -/
def fail (s : Shell δ ε) : Call → Option (Shell δ ε)
  | .wait => if s.child = .exited true ∨ s.child = .exited false then some s else none
  | _ => some s

/-- What the next call does when it comes back. -/
def answer (env : Env δ) (s : Shell δ ε) (err : Option ε) : Option (Shell δ ε) :=
  s.main.call.bind fun c =>
    let t := if err.isNone then s.succeed env c else s.fail c
    t.map fun t => { t with main := s.main.answer err }

/-- What a deferred call that comes back without an error has done, if it can: `os.Chdir` needs a
`$PWD`, and `os.Remove` a file or an empty directory. -/
def carryOut (env : Env δ) (s : Shell δ ε) : Deferred → Option (Shell δ ε)
  | .chdir => env.pwd.map fun d => { s with cwd := d }
  | .close => some { s with isOpen := false }
  | .remove =>
    if s.entries s.cwd = .file ∨ s.entries s.cwd = .emptyDir then
      some { s with entries := Function.update s.entries s.cwd .absent }
    else none
  | .signal | .killGroup => some { s with signalled := s.signalled || decide (s.child = .running) }

/-- A deferred call that fails has done nothing, but that a file is closed whatever `Close` says. -/
def ignore (s : Shell δ ε) (d : Deferred) : Shell δ ε :=
  { s with isOpen := if d = .close then false else s.isOpen, ignored := s.ignored ++ [d] }

/-- What the next deferred call does when it comes back. -/
def unwind (env : Env δ) (s : Shell δ ε) (err : Option ε) : Option (Shell δ ε) :=
  s.main.unwind.bind fun x =>
    let t := if err.isNone then s.carryOut env x.1 else some (s.ignore x.1)
    t.map fun t => { t with main := x.2 }

def handle (s : Shell δ ε) : Option (Shell δ ε) :=
  match s.handler with
  | .first => if s.signalChan then some { s with signalChan := false, handler := .cancel } else none
  | .cancel => some { s with ctxDone := true, handler := .second }
  | .second => if s.signalChan then some { s with signalChan := false, handler := .exit } else none
  | .exit => some { s with exited := true }

inductive Action (δ ε : Type)
  /-- `SIGTERM` or `SIGINT` comes; it is dropped if the channel is full. -/
  | signal
  | handle
  /-- The next call of the function comes back. -/
  | answer (err : Option ε)
  | advance
  /-- The next deferred call comes back. -/
  | unwind (err : Option ε)
  /-- The cancelled context has the child killed. -/
  | kill
  /-- The script, or a process that it has left running, makes or removes a `tmp.sh`. -/
  | script (d : δ) (entry : Entry)
  /-- The script ends. -/
  | ends (ok : Bool)

def step (env : Env δ) (s : Shell δ ε) (a : Action δ ε) : Option (Shell δ ε) :=
  if s.exited then none
  else match a with
    | .signal => some { s with signalChan := true, signals := s.signals + 1 }
    | .handle => s.handle
    | .answer err => s.answer env err
    | .advance => s.main.advance.map fun main => { s with main := main }
    | .unwind err => s.unwind env err
    | .kill => if s.ctxDone ∧ s.child = .running then some { s with child := .exited false } else none
    | .script d entry =>
      if s.child = .notStarted then none
      else some { s with
        entries := Function.update s.entries d entry
        meddled := s.meddled || decide (s.child ≠ .running) }
    | .ends ok => if s.child = .running then some { s with child := .exited ok } else none

end Shell
end HalfMesh.Demo
