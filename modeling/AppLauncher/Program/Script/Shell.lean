import AppLauncher.Program.Behaviour
import AppLauncher.Program.Script.Command
import AppLauncher.Program.Script.Pattern
import AppLauncher.Storage.Disk

/-!
# The state of a script

What a running script holds: its variables and functions, where its streams lead, the clock, and what it has done
so far.
-/

namespace AppLauncher.Program.Script

open AppLauncher.Storage

/-- Where a stream leads. -/
inductive Port
  | stdout
  | stderr
  /-- Bytes vanish. -/
  | nothing
  /-- Bytes are kept for another command. -/
  | buffer
  | file (path : String)
  | closed
  deriving DecidableEq, Repr

/-- What comes after a command. -/
inductive Flow
  | next
  | exit
  | killed (signal : Nat)
  | leaveLoop (levels : Nat)
  | repeatLoop (levels : Nat)
  | returned
  /-- The script runs longer than anybody waits. -/
  | endless
  deriving DecidableEq, Repr

/-- The state of a script. -/
structure Shell where
  name : String
  args : List String
  pid : Nat
  parent : Nat
  disk : Disk
  bindings : List (String × String) := []
  exported : List String := []
  functions : List (String × Command) := []
  status : Nat := 0
  clock : Nat := 0
  /-- What was done, the last first. -/
  events : List Event := []
  ports : List (Nat × Port) := [(1, .stdout), (2, .stderr)]
  input : List UInt8 := []
  buffer : List UInt8 := []
  traps : List (String × String) := []
  flow : Flow := .next
  heldUntil : Nat := 0
  lastJob : Nat := 0
  leftBehind : Bool := false
  strict : Bool := false
  guarded : Bool := false
  line : Nat := 1

/-- The time after which nobody watches a script any more, in milliseconds. -/
def horizon : Nat := 600000

namespace Shell

/-- The value of a variable. -/
def value? (s : Shell) (name : String) : Option String :=
  match name with
  | "#" => some (toString s.args.length)
  | "*" => some (" ".intercalate s.args)
  | "@" => some (" ".intercalate s.args)
  | "?" => some (toString s.status)
  | "$" => some (toString s.pid)
  | "!" => if s.lastJob = 0 then some "" else some (toString s.lastJob)
  | "-" => some ""
  | "0" => some s.name
  | "PPID" => some (toString s.parent)
  | name =>
    match Text.natOf? name.toList with
    | some (n + 1) => s.args[n]?
    | some 0 => some s.name
    | none => s.bindings.lookup name

/-- The script with a variable set. -/
def set (s : Shell) (name value : String) : Shell :=
  { s with bindings := Document.setEntry name value s.bindings }

/-- The script with an exit status. -/
def withStatus (s : Shell) (n : Nat) : Shell := { s with status := n }

/-- Where a stream leads. -/
def port (s : Shell) (stream : Nat) : Port := (s.ports.lookup stream).getD .closed

/-- The streams with one led to a place. -/
def led (s : Shell) (stream : Nat) (p : Port) : List (Nat × Port) :=
  (stream, p) :: s.ports.filter (·.1 != stream)

/-- The script after an action. -/
def act (s : Shell) (a : Action) : Shell :=
  { s with events := ⟨s.clock, a, s.leftBehind⟩ :: s.events }

/-- Bytes written to a stream, and whether the stream took them. -/
def write (s : Shell) (stream : Nat) (bytes : List UInt8) (itself : Bool) : Shell × Bool :=
  match s.port stream with
  | .stdout => (if bytes.isEmpty then s else s.act (.write .stdout bytes itself), true)
  | .stderr => (if bytes.isEmpty then s else s.act (.write .stderr bytes itself), true)
  | .nothing => (s, true)
  | .buffer => ({ s with buffer := s.buffer ++ bytes }, true)
  | .file path =>
    match s.disk.append path bytes 0 with
    | .ok d => ({ s with disk := d }, true)
    | .error _ => (s, false)
  | .closed => (s, bytes.isEmpty)

/-- A message of the script. -/
def complain (s : Shell) (message : String) : Shell :=
  (s.write 2 (Text.Utf8.ofString (s.name ++ ": " ++ toString s.line ++ ": " ++ message ++ "\n")) true).1

/-- A message of a program. -/
def report (s : Shell) (message : String) : Shell := (s.write 2 (Text.Utf8.ofString (message ++ "\n")) false).1

/-- The script that ends with a status. -/
def exitWith (s : Shell) (n : Nat) : Shell := { s with status := n, flow := .exit }

/-- The script some time later. -/
def pause (s : Shell) (millis : Nat) : Shell :=
  let s := { s with clock := s.clock + millis }
  if horizon < s.clock then { s with flow := .endless } else s

/-- The streams that lead out of the script. -/
def opened (s : Shell) (p : Port) : Bool := s.ports.any fun e => e.2 == p

/-- The script with its streams led elsewhere for good; a stream that nothing leads to any more is closed. -/
def setPorts (s : Shell) (ports : List (Nat × Port)) : Shell :=
  let t := { s with ports }
  let t := if s.opened .stdout && !t.opened .stdout then t.act (.close .stdout) else t
  if s.opened .stderr && !t.opened .stderr then t.act (.close .stderr) else t

/-- A copy of the script whose changes of variables are forgotten, after it has run. -/
def afterSubshell (s t : Shell) : Shell :=
  let flow := match t.flow with
    | .killed n => if t.pid = s.pid then .killed n else .next
    | .endless => .endless
    | _ => .next
  let status := match t.flow with
    | .killed n => 128 + n
    | _ => t.status
  { s with
    disk := t.disk, status, clock := t.clock, events := t.events, input := t.input, buffer := t.buffer,
    flow, heldUntil := t.heldUntil }

end Shell

/-! ### Fields -/

/-- What the expansion of words gives: finished fields, the last first, and the field at work. -/
structure Fields where
  finished : List (List Marked) := []
  current : Option (List Marked) := none

namespace Fields

/-- The field at work with more characters. -/
def add (f : Fields) (cs : List Char) (quoted : Bool) : Fields :=
  if cs.isEmpty && !quoted then f
  else { f with current := some (f.current.getD [] ++ cs.map (·, quoted)) }

/-- The field at work finished. -/
def cut (f : Fields) : Fields :=
  match f.current with
  | some c => { finished := c :: f.finished, current := none }
  | none => f

/-- Text that blanks split. -/
def addSplit (f : Fields) : List Char → Fields
  | [] => f
  | c :: rest => if c = ' ' ∨ c = '\t' ∨ c = '\n' then addSplit f.cut rest else addSplit (f.add [c] false) rest

/-- Texts that are fields of their own, the first and the last joined to what stands around them. -/
def addEach (f : Fields) : List String → Fields
  | [] => f
  | [s] => f.add s.toList true
  | s :: rest => addEach (f.add s.toList true).cut rest

/-- All fields in order. -/
def all (f : Fields) : List (List Marked) := f.cut.finished.reverse

end Fields

/-- The characters of a field. -/
def fieldText (f : List Marked) : String := String.ofList (f.map (·.1))

/-! ### Signals -/

/-- The signals that scripts name. -/
def signals : List (String × Nat) := [
  ("EXIT", 0), ("HUP", 1), ("INT", 2), ("QUIT", 3), ("ILL", 4), ("TRAP", 5), ("ABRT", 6), ("BUS", 7), ("FPE", 8),
  ("KILL", 9), ("USR1", 10), ("SEGV", 11), ("USR2", 12), ("PIPE", 13), ("ALRM", 14), ("TERM", 15), ("CHLD", 17),
  ("CONT", 18), ("STOP", 19), ("TSTP", 20), ("TTIN", 21), ("TTOU", 22), ("URG", 23), ("XCPU", 24), ("XFSZ", 25),
  ("VTALRM", 26), ("PROF", 27), ("WINCH", 28), ("POLL", 29), ("PWR", 30), ("SYS", 31)]

/-- The number of a signal that is named or numbered. -/
def signalNumber? (s : String) : Option Nat :=
  match Text.natOf? s.toList with
  | some n => some n
  | none =>
    let name := String.ofList (s.toList.map Char.toUpper)
    match signals.lookup name with
    | some n => some n
    | none => if name.startsWith "SIG" then signals.lookup (name.drop 3).toString else none

/-- The name of a signal. -/
def signalName (n : Nat) : String := ((signals.find? fun p => p.2 == n).map (·.1)).getD (toString n)

/-- What a script writes about a program that a signal has ended. -/
def killTexts : List (Nat × String) := [
  (1, "Hangup"), (3, "Quit"), (4, "Illegal instruction"), (6, "Aborted"), (8, "Floating point exception"),
  (9, "Killed"), (10, "User defined signal 1"), (11, "Segmentation fault"), (12, "User defined signal 2"),
  (14, "Alarm clock"), (15, "Terminated")]

/-- The signals that do nothing to a process that has not asked for them. -/
def isHarmless (n : Nat) : Bool := [0, 17, 18, 23, 28].contains n

end AppLauncher.Program.Script
