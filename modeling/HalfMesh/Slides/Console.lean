import HalfMesh.Foundations.Markup
import HalfMesh.Foundations.Progress
import HalfMesh.Slides.Windows

/-! The output of the playgrounds of one window (`theme/static/playground.js`, with the handlers of
`play.js`): the transport that runs their programs over a socket, and the callback that puts into the
page what a program writes. -/
namespace HalfMesh.Slides
open HalfMesh.Foundations
set_option autoImplicit false
set_option maxHeartbeats 250000
set_option maxRecDepth 120000

/-! ## `PlaygroundOutput` -/

/-- `Kind` of a write; `system` is any other text. -/
inductive Kind
  | start | stdout | stderr | ended | system
  deriving DecidableEq

structure Write where
  kind : Kind
  body : List Char
  deriving DecidableEq

inductive ClassName
  | system | stdout | stderr
  deriving DecidableEq

/-- A child of `outpre`. -/
inductive Node
  | img (src : List Char)
  | span (className : ClassName) (innerHTML : List Char)
  deriving DecidableEq

namespace Write

def className (write : Write) : ClassName :=
  match write.kind with
  | .stdout => .stdout
  | .stderr => .stderr
  | _ => .system

/-- `m`, until it is split. -/
def message (write : Write) : List Char :=
  if write.kind = .ended then
    "\nProgram exited".toList ++ if write.body = [] then ".".toList else ": ".toList ++ write.body
  else write.body

/-- `m.indexOf('IMAGE:') === 0`. -/
def isImage (write : Write) : Bool := decide ("IMAGE:".toList <+: write.message)

/-- `url`. -/
def image (write : Write) : List Char := "data:image/png;base64,".toList ++ write.message.drop 6

end Write

/-- The three replacements of `m`. -/
def escapes : List (Char × List Char) := [('&', "&amp;".toList), ('<', "&lt;".toList), ('>', "&gt;".toList)]

def playgroundOutput (el : List Node) (write : Write) : List Node :=
  if write.kind = .start then []
  else if write.isImage then el ++ [.img write.image]
  else
    let m := write.message
    let s := m.splitOn '\x0c'
    let (el, m) := if s.length > 1 then ([], s.getLast?.getD []) else (el, m)
    el ++ [.span write.className (replaceEach escapes m)]

/-! ## `SocketTransport` -/

/-- What the server says. An `Id` that is no numeral names no program. -/
structure Message where
  id : ℕ
  write : Write

/-- What is sent to the server. -/
inductive Packet
  | run (id : ℕ) (race : Bool)
  | kill (id : ℕ)
  deriving DecidableEq

structure SocketTransport where
  id : ℕ
  /-- The playground whose output the callback writes. -/
  outputs : ℕ → Option ℕ
  started : ℕ → Bool
  sent : List Packet

namespace SocketTransport

def start : SocketTransport where
  id := 0
  outputs _ := none
  started _ := false
  sent := []

/-- `Run`; `thisID` is the `id` before. -/
def run (t : SocketTransport) (output : ℕ) (race : Bool) : SocketTransport :=
  { t with
    id := t.id + 1
    outputs := Function.update t.outputs t.id (some output)
    sent := t.sent ++ [.run t.id race] }

def kill (t : SocketTransport) (thisID : ℕ) : SocketTransport := { t with sent := t.sent ++ [.kill thisID] }

/-- The calls of `output` for a message, and whose output that is. None for a `TypeError`: `output` is
undefined, and not `null`. -/
def onmessage (t : SocketTransport) (m : Message) : Option (SocketTransport × ℕ × List Write) :=
  (t.outputs m.id).map fun output =>
    if t.started m.id then (t, output, [m.write])
    else ({ t with started := Function.update t.started m.id true }, output, [{ kind := .start, body := [] }, m.write])

end SocketTransport

/-! ## The playgrounds of a window -/

structure Page where
  transport : SocketTransport
  /-- `running` of each playground. -/
  running : ℕ → Option ℕ
  outpre : ℕ → List Node
  /-- The messages that ended in a `TypeError`. -/
  errors : ℕ

namespace Page

def start : Page where
  transport := .start
  running _ := none
  outpre _ := []
  errors := 0

/-- `onRun` empties `outpre` before it runs the program; `Kill` is one of the program that `running` is. -/
def request (s : Page) (index : ℕ) : Request → Option Page
  | .run race => some { s with
      transport := s.transport.run index race
      running := Function.update s.running index (some s.transport.id)
      outpre := Function.update s.outpre index [] }
  | .kill => (s.running index).map fun thisID => { s with transport := s.transport.kill thisID }

def onmessage (s : Page) (m : Message) : Page :=
  match s.transport.onmessage m with
  | some (transport, output, writes) => { s with
      transport := transport
      outpre := Function.update s.outpre output (writes.foldl playgroundOutput (s.outpre output)) }
  | none => { s with errors := s.errors + 1 }

inductive Action
  | request (index : ℕ) (r : Request)
  | message (m : Message)

def step (s : Page) : Action → Option Page
  | .request index r => s.request index r
  | .message m => some (s.onmessage m)

end Page
end HalfMesh.Slides
