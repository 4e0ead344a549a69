import AppLauncher.Program.Script.Run

/-!
# Starting processes

A program is found by its name and started with arguments.  What cannot be started gives the fault that the system
reports; what can is known by its behaviour.
-/

namespace AppLauncher.Program

open AppLauncher.Storage AppLauncher.Program.Script

/-- The variables that a process is started with. -/
abbrev Environment := List (String × String)

/-- The fault of a text that cannot be handed to a program. -/
def unusableText : Fault := .custom .invalidInput "nul byte found in provided data"

/-- How many bytes an argument may have. -/
def argumentLimit : Nat := 131072

/-- The fault of a file that is to be run by the program that its first line names. -/
def runnable (d : Disk) (data : List UInt8) : Except Fault Unit :=
  match interpreterLine? data with
  | none => .error Fault.notProgram
  | some (program, _) =>
    match programAt d program with
    | .tool _ => .ok ()
    | .shell _ => .ok ()
    | .file _ inner => if (interpreterLine? inner).isSome then .ok () else .error Fault.notProgram
    | .denied => .error Fault.denied
    | .missing => .error Fault.missing

/-- Whether the program at a path can be run. -/
def checkPath (d : Disk) (path : String) : Except Fault Unit :=
  if (systemProgram? path).isSome then .ok ()
  else
    match d.entry path with
    | .error f => .error f
    | .ok (.file data true _) => runnable d data
    | .ok _ => .error Fault.denied

/-- Whether a program of that name can be run.  A name without a slash is looked for in the directories of the
search path; one that cannot be run is passed over, but it is reported if no other is found. -/
def check (d : Disk) (search program : String) : Except Fault Unit :=
  if program = "" then .error Fault.missing
  else if program.toList.contains '/' then checkPath d program
  else if 255 < Text.Utf8.size program then .error Fault.longName
  else
    let rec look : List String → Fault → Except Fault Unit
      | [], f => .error f
      | dir :: rest, f =>
        match checkPath d (join (if dir = "" then "." else dir) program) with
        | .ok () => .ok ()
        | .error g =>
          if g = Fault.denied then look rest g
          else if g = Fault.missing ∨ g = Fault.notDirectory then look rest f
          else .error g
    look ((splitAll (· == ':') search.toList).map String.ofList) Fault.missing

/-- The behaviour of a script that has run. -/
def Behaviour.ofShell (s : Shell) : Behaviour :=
  let ending := match s.flow with
    | .endless => none
    | .killed n => some (s.clock, Server.Status.signal n)
    | _ => some (s.clock, .code s.status)
  { events := s.events.reverse.mergeSort fun a b => a.time ≤ b.time, ending, heldUntil := s.heldUntil }

/-- The number of the process that starts others. -/
def launcherPid : Nat := 4241

/-- Runs a program as the main one of its process.  The fuel bounds both its steps and the programs that only start
another in their place. -/
def runMain : Nat → String → String → List String → Shell → Shell
  | 0, _, _, _, s => { s with flow := .endless }
  | n + 1, search, program, args, s =>
    let runTool (name : String) (args : List String) : Shell :=
      if name = "env" then
        let sets := args.takeWhile fun a => a.toList.contains '='
        let s := sets.foldl (fun s a =>
          let key := String.ofList (a.toList.takeWhile (· != '='))
          let s := s.set key (String.ofList (a.toList.drop (key.length + 1)))
          { s with exported := key :: s.exported }) s
        match args.drop sets.length with
        | inner :: rest => runMain n search inner rest s
        | [] => Tool.run name [] s
      else Tool.run name args s
    let runScript (interpreter : String) (args : List String) : Shell :=
      finish n (runShell n interpreter args (s.childOf interpreter args []))
    match findProgram s.disk search program with
    | .tool name => runTool name args
    | .shell _ => runScript program args
    | .file path data =>
      match interpreterLine? data with
      | some (interpreter, arg) =>
        let args := arg.toList ++ path :: args
        match programAt s.disk interpreter with
        | .shell _ => runScript interpreter args
        | .tool name => runTool name args
        | _ => (s.withStatus 126)
      | none => runScript "sh" (path :: args)
    | .missing => s.withStatus 127
    | .denied => s.withStatus 126

/-- Starts a program. -/
def launch (d : Disk) (environment : Environment) (program : String) (args : List String) :
    Except Fault Behaviour := do
  if (program :: args).any (·.toList.contains '\x00') then .error unusableText
  else if args.any fun a => argumentLimit ≤ Text.Utf8.size a then .error (.system 7)
  else
    let search := (environment.lookup "PATH").getD defaultPath
    check d search program
    let outside : Shell := {
      name := "", args := [], pid := launcherPid, parent := launcherPid - 1, disk := d
      bindings := environment, exported := environment.map (·.1) }
    pure (Behaviour.ofShell (runMain stepLimit search program args outside))

end AppLauncher.Program
