import HalfMesh.Slides.Console

/-! The other transport of `theme/static/playground.js`: a program is compiled and run by a server, and
what it wrote is played back at the pace it was written. Each run waits for one thing at a time, and
the runs of all playgrounds go on side by side. The playback calls itself for every event without a
delay, so a long row of them overflows the stack. -/
namespace HalfMesh.Slides
open HalfMesh.Foundations
set_option autoImplicit false
set_option maxHeartbeats 250000
set_option maxRecDepth 120000

/-! ## `playback` -/

structure PlayEvent where
  kind : Kind
  message : List Char
  delay : ℤ
  deriving DecidableEq

def PlayEvent.write (e : PlayEvent) : Write := { kind := e.kind, body := e.message }

/-- An answer of `/compile`; what it does not have is empty, zero or false. -/
structure CompileData where
  errors : List Char
  events : List PlayEvent
  status : ℤ
  isTest : Bool
  testsFailed : ℤ
  vetErrors : List Char
  vetOK : Bool
  deriving DecidableEq

/-- What a run waits for; for nothing either, once a handler of its own has thrown. -/
inductive Awaited
  | compile
  | vet (data : CompileData)
  | timeout (e : PlayEvent) (events : List PlayEvent) (data : CompileData)
  | nothing
  | thrown
  deriving DecidableEq

def startWrite : Write := { kind := .start, body := [] }

def killedWrite : Write := { kind := .ended, body := "killed".toList }

namespace CompileData

/-- The last call of `output`. -/
def endWrite (data : CompileData) : Write :=
  if data.isTest then
    { kind := .system
      body := if data.testsFailed > 0 then
          "\n".toList ++ (toString data.testsFailed).toList ++ " test".toList ++
            (if data.testsFailed > 1 then "s".toList else []) ++ " failed.".toList
        else "\nAll tests passed.".toList }
  else if data.status > 0 then
    { kind := .ended, body := "status ".toList ++ (toString data.status).toList ++ ".".toList }
  else if data.errors ≠ [] then { kind := .ended, body := data.errors ++ ".".toList }
  else { kind := .ended, body := [] }

/-- The calls of `output` up to the next timeout, where the stack has room for so many more calls of
`next`, with what these call. One more is a `RangeError`, which is taken to come before its `output`. -/
def next (data : CompileData) : ℕ → List PlayEvent → List Write × Awaited
  | _, [] => ([data.endWrite], .nothing)
  | 0, e :: events => if e.delay = 0 then ([e.write], .thrown) else ([], .timeout e events data)
  | room + 1, e :: events =>
    if e.delay = 0 then
      let (writes, awaited) := data.next room events
      (e.write :: writes, awaited)
    else ([], .timeout e events data)

def playback (data : CompileData) (room : ℕ) : List Write × Awaited :=
  let (writes, awaited) := data.next room data.events
  (startWrite :: writes, awaited)

/-- The errors of vet become the first events. -/
def withVet (data : CompileData) (vetErrors : List Char) : CompileData :=
  if vetErrors = [] then data
  else { data with events :=
    { kind := .stderr, message := vetErrors, delay := 0 } ::
      { kind := .system, message := "Go vet exited.\n\n".toList, delay := 0 } :: data.events }

end CompileData

/-! ## `HTTPTransport` -/

/-- `error`, with its message. -/
def errorWrites : List Write :=
  [startWrite, { kind := .stderr, body := "Error communicating with remote server.".toList },
    { kind := .ended, body := [] }]

def buildFailed (msg : List Char) : List Write :=
  [startWrite, { kind := .stderr, body := msg }, { kind := .system, body := "\nGo build failed.".toList }]

def tookTooLong : List Char := "process took too long".toList

/-- What comes for a run: an answer of `/compile`, or none at all; the errors that `/vet` finds, which
are empty if it fails; the end of a timeout. Either answer may be `null`. -/
inductive Reply
  | compiled (data : Option CompileData)
  | failed
  | vetted (vetErrors : Option (List Char))
  | timeout
  deriving DecidableEq

/-- Vet is asked on its own when the server has not run it with the compiler. -/
def CompileData.asksVet (enableVet : Bool) (data : CompileData) : Bool :=
  enableVet && !data.vetOK && decide (data.vetErrors = [])

/-- `success` of `/compile`, when no other program has been run since. -/
def CompileData.success (enableVet : Bool) (data : CompileData) (room : ℕ) : List Write × Awaited :=
  if data.errors ≠ [] then
    if data.errors = tookTooLong then data.playback room else (buildFailed data.errors, .nothing)
  else
    let data := data.withVet data.vetErrors
    if data.asksVet enableVet then ([], .vet data) else data.playback room

namespace Awaited

/-- The calls of `output`, and what is awaited next. Only `success` of `/compile` looks whether another
program has been run since, and whether the answer is `null`. -/
def receive (enableVet latest : Bool) (room : ℕ) : Awaited → Reply → Option (List Write × Awaited)
  | .compile, .compiled data =>
    some (if latest then (data.map fun data => data.success enableVet room).getD ([], .nothing) else ([], .nothing))
  | .compile, .failed => some (errorWrites, .nothing)
  | .vet data, .vetted (some vetErrors) => some ((data.withVet vetErrors).playback room)
  | .vet _, .vetted none => some ([], .thrown)
  | .timeout e events data, .timeout =>
    let (writes, awaited) := data.next room events
    some (e.write :: writes, awaited)
  | _, _ => none

/-- `Stop` of what is played, if anything is. -/
def stop : Awaited → Awaited
  | .timeout _ _ _ => .nothing
  | awaited => awaited

end Awaited

/-- A run of a program, with the playground whose output its callback writes. -/
structure HTTPRun where
  output : ℕ
  awaited : Awaited

structure HTTPTransport where
  enableVet : Bool
  /-- So many calls of `next` fit on the stack, whoever makes the first. -/
  stack : ℕ
  seq : ℕ
  /-- By `cur`. -/
  runs : ℕ → Option HTTPRun

namespace HTTPTransport

def start (enableVet : Bool) (stack : ℕ) : HTTPTransport where
  enableVet := enableVet
  stack := stack
  seq := 0
  runs _ := none

/-- `Run`; `cur` is the `seq` after. -/
def run (t : HTTPTransport) (output : ℕ) : HTTPTransport :=
  { t with
    seq := t.seq + 1
    runs := Function.update t.runs (t.seq + 1) (some { output := output, awaited := .compile }) }

def setAwaited (t : HTTPTransport) (cur : ℕ) (r : HTTPRun) (awaited : Awaited) : HTTPTransport :=
  { t with runs := Function.update t.runs cur (some { r with awaited := awaited }) }

end HTTPTransport

/-! ## The playgrounds of a window -/

structure HTTPPage where
  transport : HTTPTransport
  /-- `running` of each playground. -/
  running : ℕ → Option ℕ
  outpre : ℕ → List Node

namespace HTTPPage

def start (enableVet : Bool) (stack : ℕ) : HTTPPage where
  transport := .start enableVet stack
  running _ := none
  outpre _ := []

/-- The callback of a run is called, and the run waits for something else. -/
def output (s : HTTPPage) (cur : ℕ) (r : HTTPRun) (x : List Write × Awaited) : HTTPPage :=
  { s with
    transport := s.transport.setAwaited cur r x.2
    outpre := Function.update s.outpre r.output (x.1.foldl playgroundOutput (s.outpre r.output)) }

/-- The run that is `running` in a playground. -/
def run? (s : HTTPPage) (index : ℕ) : Option (ℕ × HTTPRun) :=
  (s.running index).bind fun cur => (s.transport.runs cur).map fun r => (cur, r)

/-- Also the start of `onRun` and of `onClose`. -/
def onKill (s : HTTPPage) (index : ℕ) : HTTPPage :=
  match s.run? index with
  | some (cur, r) => s.output cur r ([killedWrite], r.awaited.stop)
  | none => s

def onRun (s : HTTPPage) (index : ℕ) : HTTPPage :=
  let s := s.onKill index
  { transport := s.transport.run index
    running := Function.update s.running index (some (s.transport.seq + 1))
    outpre := Function.update s.outpre index [] }

inductive Action
  | onRun (index : ℕ)
  | onKill (index : ℕ)
  /-- Something comes for a run, and finds so much room on the stack. -/
  | reply (cur : ℕ) (reply : Reply) (room : ℕ)

def step (s : HTTPPage) : Action → Option HTTPPage
  | .onRun index => some (s.onRun index)
  | .onKill index => some (s.onKill index)
  | .reply cur reply room =>
    if room < s.transport.stack then none
    else (s.transport.runs cur).bind fun r =>
      (r.awaited.receive s.transport.enableVet (decide (s.transport.seq = cur)) room reply).map (s.output cur r)

end HTTPPage
end HalfMesh.Slides
