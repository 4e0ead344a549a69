import AppLauncher.Log
import AppLauncher.Output.Capture
import AppLauncher.Program.Behaviour
import AppLauncher.Server.Readiness
import AppLauncher.Server.Supervision
import AppLauncher.Text.Utf8

/-!
# A running server

The server's process with its supervision and the forwarding of what it writes.  Time goes on from one action of
the process to the next.
-/

namespace AppLauncher.Server

open AppLauncher.Output AppLauncher.Program

/-- What is left of the behaviour of a process, at times of the clock. -/
structure Life where
  events : List Program.Event
  ending : Option (Nat × Status)
  heldUntil : Nat
  ignoresBrokenPipe : Bool := false

/-- What is left of the behaviour of a process that has ended: the actions of processes that it left behind. -/
def Life.orphaned (l : Life) : Life := { l with events := l.events.filter (·.leftBehind), ending := none }

/-- A server. -/
structure Running where
  pid : Nat
  supervision : Supervision
  life : Life
  stdout : Forwarding Capture
  stderr : Forwarding Capture
  /-- Whether the streams are forwarded; not after what runs in the background was dropped. -/
  forwards : Bool := true
  /-- The signals that the process has sent to the launcher. -/
  signals : List Nat := []

/-- How long a process takes to begin, in milliseconds. -/
def startup : Nat := 5

/-- The number of the server's process in messages. -/
def pidText (pid : Nat) : String := "Some(" ++ toString pid ++ ")"

/-- The exit code in messages. -/
def codeText (o : Outcome) : String :=
  match o.code? with
  | some n => "Some(" ++ toString n ++ ")"
  | none => "None"

/-- The earliest of some times. -/
def earliest (ts : List (Option Nat)) : Option Nat := (ts.filterMap id).min?

namespace Running

/-- A server that was just started. -/
def start (clock pid : Nat) (b : Behaviour) (readyLine : Option String) : Running :=
  let begun := clock + startup
  { pid, supervision := .start clock
    life := {
      events := b.events.map fun e => { e with time := begun + e.time }
      ending := b.ending.map fun p => (begun + p.1, p.2)
      heldUntil := if b.heldUntil = 0 then 0 else begun + b.heldUntil }
    stdout := { sink := {}, watch := readyLine.map fun l => .new (Text.Utf8.ofString l) }
    stderr := { sink := {} } }

/-- The outcome, once it is known. -/
def exited (r : Running) : Option Outcome := r.supervision.exit

/-- What those who wait for the end get by now. -/
def awaited? (r : Running) : Option Outcome := r.supervision.awaited?

/-- Whether the watched line was seen, once it is known: it was seen, or it cannot be seen any more. -/
def readyLine? (r : Running) : Option Bool :=
  if r.stdout.lineSeen then some true
  else if r.stdout.watch.isNone || r.stdout.isOver || !r.forwards then some false
  else none

/-- What a wait for readiness knows of the server. -/
def view (r : Running) : View := ⟨r.stdout.lineSeen, r.awaited?⟩

/-- The forwarding of a stream. -/
def forwarding (r : Running) : Stream → Forwarding Capture
  | .stdout => r.stdout
  | .stderr => r.stderr

/-- The server with the forwarding of a stream changed. -/
def setForwarding (r : Running) : Stream → Forwarding Capture → Running
  | .stdout, f => { r with stdout := f }
  | .stderr, f => { r with stderr := f }

/-- What a message calls a stream. -/
def streamName : Stream → String
  | .stdout => "stdout"
  | .stderr => "stderr"

/-- Whether a stream has a reader. -/
def hasReader (r : Running) (s : Stream) : Bool := r.forwards && !(r.forwarding s).isOver

/-- The server after reads of a stream, and the line about a forwarding that they ended. -/
def read (r : Running) (s : Stream) (reads : List Read) : Running × List Log.Line :=
  if r.hasReader s then
    let f := reads.foldl (Forwarding.step Capture.operations) (r.forwarding s)
    let lines := match f.result? with
      | some (.error e) => [Log.warn ("Server " ++ streamName s ++ " forwarding stopped: " ++ e.text)]
      | _ => []
    (r.setForwarding s f, lines)
  else (r, [])

/-- The server after both streams have come to their end. -/
def closeStreams (r : Running) : Running × List Log.Line :=
  let (r, a) := r.read .stdout [.bytes []]
  let (r, b) := r.read .stderr [.bytes []]
  (r, a ++ b)

/-- The line about an end that was noted. -/
def endLine (o : Outcome) : Log.Line :=
  Log.info ("Server process exited with " ++ o.text ++ " code=" ++ codeText o)

/-- The watcher goes on as far as it can, and the line about what it noted. -/
def settle (r : Running) : Running × List Log.Line :=
  let after := r.supervision.settle
  let lines := match r.supervision.exit, after.exit with
    | none, some o => [endLine o]
    | _, _ => []
  ({ r with supervision := after }, lines)

/-- The streams of a process that has ended come to their end, unless another process holds them. -/
def release (r : Running) : Running × List Log.Line :=
  if r.life.heldUntil ≤ r.supervision.clock then r.closeStreams else (r, [])

/-- Whether the watcher can go on at once. -/
def isStirring (r : Running) : Bool := decide (r.supervision.settle ≠ r.supervision)

/-- The watcher goes on as far as it can; a process that it kills ends. -/
def react (r : Running) : Running × List Log.Line :=
  let wasRunning := r.supervision.child = .running
  let (r, lines) := r.settle
  if wasRunning ∧ r.supervision.child ≠ .running then
    let (r, more) := { r with life := r.life.orphaned }.release
    (r, lines ++ more)
  else (r, lines)

/-- The process ends, and the watcher notes it. -/
def childEnds (r : Running) (status : Status) : Running × List Log.Line :=
  let r := { r with life := r.life.orphaned, supervision := r.supervision.step (.childEnds status) }
  let (r, lines) := r.settle
  let (r, more) := r.release
  (r, lines ++ more)

/-- The server after an action of its process. -/
def act (r : Running) (a : Action) : Running × List Log.Line :=
  match a with
  | .write s bytes itself =>
    if r.hasReader s then r.read s (Read.ofBytes bytes)
    else if itself && !r.life.ignoresBrokenPipe then r.childEnds .brokenPipe
    else (r, [])
  | .close s => r.read s [.bytes []]
  | .ignoreBrokenPipe => ({ r with life := { r.life with ignoresBrokenPipe := true } }, [])
  | .signalParent n => ({ r with signals := r.signals ++ [n] }, [])

/-- The time of the next thing that happens to the server by itself. -/
def next? (r : Running) : Option Nat :=
  let now := if r.isStirring then some r.supervision.clock else none
  let event := r.life.events.head?.map (·.time)
  let ending := r.life.ending.map (·.1)
  let release := if r.supervision.child != .running && r.supervision.clock < r.life.heldUntil then
    some r.life.heldUntil else none
  earliest [now, event, ending, release]

/-- The server at a later time at which nothing happens in between. -/
def wait (r : Running) (time : Nat) : Running :=
  { r with supervision := r.supervision.step (.tick (time - r.supervision.clock)) }

/-- What a process does of itself at a time: its next action, its end, or the end of its streams. -/
def goOn (r : Running) (time : Nat) : Running × List Log.Line :=
  match r.life.events with
  | e :: rest =>
    if e.time ≤ time then { r with life := { r.life with events := rest } }.act e.action else finishAt r
  | [] => finishAt r
where
  /-- The process ends, or its streams do. -/
  finishAt (r : Running) : Running × List Log.Line :=
    match r.life.ending with
    | some (t, status) => if t ≤ time then r.childEnds status else r.release
    | none => r.release

/-- The next thing happens: the watcher goes on, or the process does. -/
def happen (r : Running) (time : Nat) : Running × List Log.Line :=
  if r.isStirring then r.react else (r.wait time).goOn time

/-- How many things can still happen to a server. -/
def remaining (r : Running) : Nat := r.life.events.length + 4

/-- The server goes on until a time, by at most so many things that happen to it. -/
def advanceLoop (time : Nat) : Nat → Running → List Log.Line → Running × List Log.Line
  | 0, r, log => (r.wait time, log)
  | n + 1, r, log =>
    match r.next? with
    | some t =>
      if t ≤ time then
        let (r, more) := r.happen (max t r.supervision.clock)
        advanceLoop time n r (log ++ more)
      else (r.wait time, log)
    | none => (r.wait time, log)

/-- The server at a later time, and the lines written until then. -/
def advance (r : Running) (time : Nat) : Running × List Log.Line := advanceLoop time r.remaining r []

/-- The line that announces a stop. -/
def stopLine (r : Running) : Log.Line := Log.info ("Stopping server process (pid " ++ pidText r.pid ++ ")")

/-- Somebody asks for a stop: the first request goes to the watcher. -/
def askStop (r : Running) : Running × List Log.Line :=
  let lines := if r.supervision.announcesStop then [r.stopLine] else []
  ({ r with supervision := r.supervision.step .stopAsked }, lines)

/-- The handle of the server is gone. -/
def dropHandle (r : Running) : Running := { r with supervision := r.supervision.step .handleDropped }

/-- Whatever runs in the background is dropped: the watcher and both forwardings.  The process goes on. -/
def dropBackground (r : Running) : Running :=
  { r with supervision := r.supervision.step .backgroundDropped, forwards := false }

/-- The server after the receiver of a stream has gone. -/
def abandon (r : Running) (s : Stream) : Running :=
  let f := r.forwarding s
  r.setForwarding s { f with sink := f.sink.abandon }

/-- The bytes of a stream that were not taken yet, and the server after they were. -/
def take (r : Running) (s : Stream) : List UInt8 × Running :=
  let f := r.forwarding s
  (f.sink.unread, r.setForwarding s { f with sink := f.sink.drained })

/-- Whether a stream is at its end. -/
def isAtEnd (r : Running) (s : Stream) : Bool := !r.hasReader s

private def awaitLoop (done : Running → Bool) : Nat → Running → List Log.Line → Running × List Log.Line
  | 0, r, log => (r, log)
  | n + 1, r, log =>
    if done r then (r, log)
    else
      match r.next? with
      | some t =>
        let (r, more) := r.happen (max t r.supervision.clock)
        awaitLoop done n r (log ++ more)
      | none => (r, log)

/-- Time goes on until something holds of the server, or nothing more happens. -/
def await (r : Running) (done : Running → Bool) : Running × List Log.Line := awaitLoop done (r.remaining + 1) r []

/-- Waits for the end: the server, the lines until then, and the outcome if there is one. -/
def waitExit (r : Running) : Running × List Log.Line × Option Outcome :=
  let (r, lines) := r.await (·.awaited?.isSome)
  (r, lines, r.awaited?)

/-- Stops the server and waits for its end. -/
def stop (r : Running) : Running × List Log.Line × Option Outcome :=
  let (r, asked) := r.askStop
  let (r, lines, o) := r.waitExit
  (r, asked ++ lines, o)

/-- Waits until the watched line is seen or cannot be seen any more. -/
def waitReadyLine (r : Running) : Running × List Log.Line × Option Bool :=
  let (r, lines) := r.await (·.readyLine?.isSome)
  (r, lines, r.readyLine?)

/-- What a stream gives up to its end and what was not taken before. -/
def takeAll (r : Running) (s : Stream) : Running × List Log.Line × List UInt8 :=
  let (r, lines) := r.await (·.isAtEnd s)
  let (bytes, r) := r.take s
  (r, lines, bytes)

end Running

end AppLauncher.Server
