import AppLauncher.Program.Script.Arithmetic
import AppLauncher.Program.Script.Tool

/-!
# Running scripts

A script runs command by command.  The fuel bounds the number of steps; a script that needs more of it runs longer
than anybody waits.
-/

namespace AppLauncher.Program.Script

open AppLauncher.Storage

/-- The first line of a file that names the program to run it, and the argument that goes with it. -/
def interpreterLine? (data : List UInt8) : Option (String × Option String) :=
  match data with
  | 35 :: 33 :: rest =>
    let line := (Text.Utf8.decode? (rest.takeWhile (· != 10))).getD []
    let line := line.dropWhile fun c => c == ' ' || c == '\t'
    let program := line.takeWhile fun c => c != ' ' && c != '\t'
    let arg := (line.drop program.length).dropWhile fun c => c == ' ' || c == '\t'
    let arg := (arg.reverse.dropWhile fun c => c == ' ' || c == '\t').reverse
    some (String.ofList program, if arg.isEmpty then none else some (String.ofList arg))
  | _ => none

/-- What a name of a program leads to. -/
inductive Found
  | tool (name : String)
  | shell (name : String)
  | file (path : String) (data : List UInt8)
  | missing
  | denied

/-- The program at a path. -/
def programAt (d : Disk) (path : String) : Found :=
  match systemProgram? path with
  | some name => if shellNames.contains name then .shell name else .tool name
  | none =>
    match d.entry path with
    | .ok (.file data true _) => .file path data
    | .ok _ => .denied
    | .error f => if f = Fault.denied then .denied else .missing

/-- The program of a name, looked for in some directories if the name is no path. -/
def findProgram (d : Disk) (search name : String) : Found :=
  if name.toList.contains '/' then programAt d name
  else
    let directories := (splitAll (· == ':') search.toList).map String.ofList
    let found := directories.map fun dir => programAt d (join (if dir = "" then "." else dir) name)
    let usable := found.find? fun f => match f with
      | .missing => false
      | .denied => false
      | _ => true
    match usable with
    | some f => f
    | none => if found.any (fun f => match f with
      | .denied => true
      | _ => false) then .denied else .missing

/-- The state in which a program begins that a script starts. -/
def Shell.childOf (s : Shell) (name : String) (args : List String) (exported : List (String × String)) : Shell :=
  let own := s.bindings.filter fun v => s.exported.contains v.1
  let bindings := exported.foldl (fun vs v => Document.setEntry v.1 v.2 vs) own
  { s with
    name, args, pid := s.pid + 1, parent := s.pid, bindings, exported := bindings.map (·.1), functions := [],
    status := 0, traps := s.traps.filter (·.2 == ""), flow := .next, strict := false, guarded := false, line := 1 }

/-- The words that commands built into the shell have. -/
def specialBuiltins : List String :=
  [":", ".", "break", "continue", "eval", "exec", "exit", "export", "readonly", "return", "set", "shift", "trap",
   "unset", "times"]

/-- A status that a number gives to the outside. -/
def statusOf (n : Nat) : Nat := n % 256

private def isPast (s : Shell) : Bool := s.flow != .next

/-- What a loop makes of what its body asks for. -/
private def afterBody (s : Shell) : Shell × Bool :=
  match s.flow with
  | .leaveLoop (n + 2) => ({ s with flow := .leaveLoop (n + 1) }, false)
  | .leaveLoop _ => ({ s with flow := .next }, false)
  | .repeatLoop (n + 2) => ({ s with flow := .repeatLoop (n + 1) }, false)
  | .repeatLoop _ => ({ s with flow := .next }, true)
  | .next => (s, true)
  | _ => (s, false)

/-- Sends a signal to the script itself, if no trap is set for it. -/
private def takeSignal (s : Shell) (n : Nat) : Shell :=
  if isHarmless n then s else { s with flow := .killed n, status := 128 + n }

private def readLine (s : Shell) : List UInt8 × Shell × Bool :=
  let line := s.input.takeWhile (· != 10)
  let rest := s.input.drop line.length
  (line, { s with input := rest.drop 1 }, !rest.isEmpty)

private def assignRead (raw : List UInt8) (names : List String) (s : Shell) : Shell :=
  let text := (Text.Utf8.decode? raw).getD []
  let blank (c : Char) : Bool := c == ' ' || c == '\t'
  let rec go : List String → List Char → Shell → Shell
    | [], _, s => s
    | [n], cs, s => s.set n (String.ofList ((cs.reverse.dropWhile blank).reverse))
    | n :: rest, cs, s =>
      let w := cs.takeWhile fun c => !blank c
      go rest ((cs.drop w.length).dropWhile blank) (s.set n (String.ofList w))
  go names (text.dropWhile blank) s

/-- The numbers that a script gives to exit, return, break and the like. -/
private def countArgument (s : Shell) (name : String) (other : Nat) : List String → Except Shell Nat
  | [] => .ok other
  | a :: _ =>
    match Text.natOf? a.toList with
    | some n => .ok n
    | none => .error ((s.complain (name ++ ": Illegal number: " ++ a)).exitWith 2)

private def setOptions (s : Shell) : List String → Shell
  | [] => s
  | "--" :: rest => { s with args := rest }
  | a :: rest =>
    match a.toList with
    | '-' :: cs => setOptions (if cs.contains 'e' then { s with strict := true } else s) rest
    | '+' :: cs => setOptions (if cs.contains 'e' then { s with strict := false } else s) rest
    | _ => { s with args := a :: rest }

private def exportAll (s : Shell) (args : List String) : Shell :=
  args.foldl (fun s a =>
    let name := String.ofList (a.toList.takeWhile (· != '='))
    let s := match (a.toList.drop name.length) with
      | '=' :: v => s.set name (String.ofList v)
      | _ => s
    { s with exported := name :: s.exported }) s

private def setTraps (s : Shell) (action : String) (names : List String) : Shell :=
  names.foldl (fun s a =>
    match signalNumber? a with
    | none => (s.complain ("trap: " ++ a ++ ": bad trap")).withStatus 1
    | some n =>
      let key := signalName n
      if action = "-" then { s with traps := s.traps.filter (·.1 != key) }
      else
        let s := { s with traps := Document.setEntry key action s.traps }
        if action = "" ∧ n = 13 then s.act .ignoreBrokenPipe else s) (s.withStatus 0)

/-- Whether a word stands for the arguments, each a field of its own. -/
private def isArguments (w : Word) : Bool :=
  w.filter (fun p => decide (p ≠ .text [] true)) == [.variable "@" true]

/-- The state after a program that was waited for; how a signal ended it is written down. -/
private def noteKill (s : Shell) (signal : Nat) : Shell :=
  match killTexts.lookup signal with
  | some text => (s.write 2 (Text.Utf8.ofString (text ++ "\n")) true).1
  | none => s

private def redirectFault (creating : Bool) (f : Fault) : String :=
  if f = Fault.missing ∨ f = Fault.notDirectory then
    (if creating then "Directory nonexistent" else "No such file")
  else faultText f

mutual

/-- The fields that a word gives.  `split` says whether blanks in expansions that are not quoted end a field. -/
def expandParts : Nat → Bool → List Part → Shell → Fields → Shell × Fields
  | 0, _, _, s, f => ({ s with flow := .endless }, f)
  | _ + 1, _, [], s, f => (s, f)
  | n + 1, split, p :: rest, s, f =>
    if isPast s then (s, f)
    else
      let place (s : Shell) (value : String) (quoted : Bool) : Shell × Fields :=
        expandParts n split rest s
          (if quoted then f.add value.toList true
           else if split then f.addSplit value.toList else f.add value.toList false)
      match p with
      | .text cs quoted => expandParts n split rest s (f.add cs quoted)
      | .variable "@" true =>
        if split then expandParts n split rest s (f.addEach s.args) else place s ((s.value? "@").getD "") true
      | .variable name quoted => place s ((s.value? name).getD "") quoted
      | .fallback name orEmpty other quoted =>
        match s.value? name with
        | some v =>
          if v = "" ∧ orEmpty then
            let (s, t) := expandText n other s
            place s t quoted
          else place s v quoted
        | none =>
          let (s, t) := expandText n other s
          place s t quoted
      | .size name quoted => place s (toString ((s.value? name).getD "").length) quoted
      | .arithmetic body quoted =>
        let (s, t) := expandText n body s
        let lookup (name : String) : Option Int :=
          match s.value? name with
          | some v => if v = "" then some 0 else (let (k, whole) := Format.argument v; if whole then some k else none)
          | none => some 0
        match Arithmetic.value? lookup t.toList with
        | some v => place s (toString v) quoted
        | none =>
          ((s.complain ("arithmetic expression: expecting primary: \"" ++ t ++ "\"")).exitWith 2, f)
      | .capture body quoted =>
        let inner := { s with ports := s.led 1 .buffer, buffer := [] }
        let t := runSource n (Source.read body) inner
        let bytes := (t.buffer.reverse.dropWhile (· == 10)).reverse
        let s := { s.afterSubshell { t with buffer := s.buffer } with status := t.status }
        place s (String.ofList ((Text.Utf8.decode? bytes).getD (bytes.map fun b => Char.ofNat b.toNat))) quoted

/-- The value of text with expansions. -/
def expandText : Nat → List Char → Shell → Shell × String
  | 0, _, s => ({ s with flow := .endless }, "")
  | n + 1, cs, s =>
    let parts := ((quotedParts (cs.length + 1) false cs []).map (·.1)).getD []
    let (s, f) := expandParts n false (joinParts parts) s {}
    (s, String.join (f.all.map fieldText))

/-- The texts that words give. -/
def expandWords : Nat → List Word → Shell → List String → Shell × List String
  | 0, _, s, done => ({ s with flow := .endless }, done)
  | _ + 1, [], s, done => (s, done)
  | n + 1, w :: rest, s, done =>
    if s.args.isEmpty ∧ isArguments w then expandWords n rest s done
    else
      let (s, f) := expandParts n true w s {}
      expandWords n rest s (done ++ f.all.map fieldText)

/-- The marked characters that a word gives, without splitting. -/
def expandMarked : Nat → Word → Shell → Shell × List Marked
  | 0, _, s => ({ s with flow := .endless }, [])
  | n + 1, w, s =>
    let (s, f) := expandParts n false w s {}
    (s, f.all.flatten)

/-- Variables set to the values of words. -/
def assignAll : Nat → List (String × Word) → Shell → Shell
  | 0, _, s => { s with flow := .endless }
  | _ + 1, [], s => s
  | n + 1, (name, w) :: rest, s =>
    let (s, v) := expandMarked n w s
    assignAll n rest (if isPast s then s else s.set name (fieldText v))

/-- Streams led elsewhere; `none` if one could not be. -/
def redirectAll : Nat → List Redirect → Shell → Option Shell
  | 0, _, s => some { s with flow := .endless }
  | _ + 1, [], s => some s
  | n + 1, r :: rest, s =>
    match r with
    | .document w =>
      let (s, v) := expandMarked n w s
      redirectAll n rest { s with input := Text.Utf8.ofString (fieldText v) }
    | .duplicate stream w =>
      let (s, v) := expandMarked n w s
      let source := fieldText v
      if source = "-" then redirectAll n rest { s with ports := s.led stream .closed }
      else
        match Text.natOf? source.toList with
        | some k => redirectAll n rest { s with ports := s.led stream (s.port k) }
        | none => none
    | .file stream operator w =>
      let (s, v) := expandMarked n w s
      let path := fieldText v
      if operator = "<" then
        match readFile s.disk path with
        | .ok bytes => redirectAll n rest { s with input := bytes }
        | .error f => failed (s.complain ("cannot open " ++ path ++ ": " ++ redirectFault false f))
      else if path = "/dev/null" then redirectAll n rest { s with ports := s.led stream .nothing }
      else if path = "/dev/stderr" then redirectAll n rest { s with ports := s.led stream (s.port 2) }
      else if path = "/dev/stdout" then redirectAll n rest { s with ports := s.led stream (s.port 1) }
      else
        let emptied := if operator = ">>" then s.disk else (s.disk.remove path).toOption.getD s.disk
        match emptied.append path [] 0 with
        | .ok d => redirectAll n rest { s with disk := d, ports := s.led stream (.file path) }
        | .error f => failed (s.complain ("cannot create " ++ path ++ ": " ++ redirectFault true f))
where
  /-- The state after a stream could not be led elsewhere. -/
  failed (s : Shell) : Option Shell := some { s with flow := .returned, status := 2 }

/-- Runs a command. -/
def run : Nat → Command → Shell → Shell
  | 0, _, s => { s with flow := .endless }
  | n + 1, c, s =>
    if isPast s then s
    else
      match c with
      | .simple line as ws rs => runSimple n as ws rs { s with line }
      | .sequence cs => runAll n cs s
      | .both a b =>
        let t := run n a { s with guarded := true }
        let t := { t with guarded := s.guarded }
        if isPast t ∨ t.status ≠ 0 then t else run n b t
      | .either a b =>
        let t := run n a { s with guarded := true }
        let t := { t with guarded := s.guarded }
        if isPast t ∨ t.status = 0 then t else run n b t
      | .pipeline negated stages =>
        let t := runStages n stages s
        if negated ∧ t.flow = .next then t.withStatus (if t.status = 0 then 1 else 0) else t
      | .background body =>
        let t := run n body { s with leftBehind := true, input := [], lastJob := s.pid + 100 }
        let behind := match t.flow with
          | .endless => horizon
          | _ => t.clock
        { s with
          disk := t.disk, events := t.events, buffer := t.buffer, heldUntil := max (max s.heldUntil t.heldUntil) behind,
          lastJob := s.pid + 100, status := 0 }
      | .subshell body => s.afterSubshell (finish n (run n body s))
      | .branch arms other => runArms n arms other s
      | .loop untilTrue condition body => runLoop n untilTrue condition body 0 s
      | .each name words body =>
        match words with
        | none => runEach n name s.args body (s.withStatus 0)
        | some ws =>
          let (s, values) := expandWords n ws s []
          runEach n name values body (s.withStatus 0)
      | .choose subject arms =>
        let (s, v) := expandMarked n subject s
        runChoice n (v.map (·.1)) arms (s.withStatus 0)
      | .define name body => { s with functions := (name, body) :: s.functions, status := 0 }
      | .redirected body rs =>
        match redirectAll n rs { s with events := s.events } with
        | none => (s.complain "Bad fd number").exitWith 2
        | some t =>
          if t.flow = .returned then { t with ports := s.ports, flow := .next }
          else
            let u := run n body t
            { u with ports := s.ports, input := if rs.any isInput then s.input else u.input }

/-- Whether a redirection gives the input. -/
def isInput : Redirect → Bool
  | .document _ => true
  | .file _ o _ => o == "<"
  | .duplicate .. => false

/-- Runs commands one after the other. -/
def runAll : Nat → List Command → Shell → Shell
  | 0, _, s => { s with flow := .endless }
  | _ + 1, [], s => s
  | n + 1, c :: rest, s => if isPast s then s else runAll n rest (run n c s)

/-- Runs the commands of a pipeline, each with the output of the one before it as its input. -/
def runStages : Nat → List Command → Shell → Shell
  | 0, _, s => { s with flow := .endless }
  | _ + 1, [], s => s
  | n + 1, [c], s => s.afterSubshell (finish n (run n c s))
  | n + 1, c :: rest, s =>
    let inner := { s with ports := s.led 1 .buffer, buffer := [] }
    let t := finish n (run n c inner)
    let after := s.afterSubshell { t with buffer := s.buffer }
    if isPast after then after else runStages n rest { after with input := t.buffer }

/-- Runs the first arm whose condition holds. -/
def runArms : Nat → List (Command × Command) → Option Command → Shell → Shell
  | 0, _, _, s => { s with flow := .endless }
  | n + 1, arms, other, s =>
    match arms with
    | [] => match other with
      | some c => run n c s
      | none => s.withStatus 0
    | (condition, body) :: rest =>
      let t := run n condition { s with guarded := true }
      let t := { t with guarded := s.guarded }
      if isPast t then t else if t.status = 0 then run n body t else runArms n rest other t

/-- Runs a loop; its status is that of the last run of its body. -/
def runLoop : Nat → Bool → Command → Command → Nat → Shell → Shell
  | 0, _, _, _, _, s => { s with flow := .endless }
  | n + 1, untilTrue, condition, body, status, s =>
    let t := run n condition { s with guarded := true }
    let t := { t with guarded := s.guarded }
    if isPast t then (afterBody t).1
    else if (t.status == 0) == untilTrue then t.withStatus status
    else
      let (u, again) := afterBody (run n body t)
      if again then runLoop n untilTrue condition body u.status u else u

/-- Runs a loop over texts. -/
def runEach : Nat → String → List String → Command → Shell → Shell
  | 0, _, _, _, s => { s with flow := .endless }
  | _ + 1, _, [], _, s => s
  | n + 1, name, v :: rest, body, s =>
    if isPast s then s
    else
      let (u, again) := afterBody (run n body (s.set name v))
      if again then runEach n name rest body u else u

/-- Runs the arm with the first pattern that matches. -/
def runChoice : Nat → List Char → List (List Word × Command) → Shell → Shell
  | 0, _, _, s => { s with flow := .endless }
  | _ + 1, _, [], s => s
  | n + 1, v, (ps, body) :: rest, s =>
    if isPast s then s
    else
      let (s, found) := matchesAny n v ps s
      if found then run n body s else runChoice n v rest s

/-- Whether one of some patterns matches. -/
def matchesAny : Nat → List Char → List Word → Shell → Shell × Bool
  | 0, _, _, s => ({ s with flow := .endless }, false)
  | _ + 1, _, [], s => (s, false)
  | n + 1, v, p :: rest, s =>
    let (s, marked) := expandMarked n p s
    if Pattern.matchesAll marked v then (s, true) else matchesAny n v rest s

/-- Runs a simple command. -/
def runSimple : Nat → List (String × Word) → List Word → List Redirect → Shell → Shell
  | 0, _, _, _, s => { s with flow := .endless }
  | n + 1, as, ws, rs, s =>
    let (s, fields) := expandWords n ws { s with status := s.status } []
    if isPast s then s
    else
      match redirectAll n rs s with
      | none => (s.complain "Bad fd number").exitWith 2
      | some t =>
        if t.flow = .returned then
          let t := { t with ports := s.ports, flow := .next }
          if (fields.head?).any specialBuiltins.contains then t.exitWith 2 else errorExit t
        else
          match fields with
          | [] =>
            let before := t.status
            let u := assignAll n as { t with status := 0 }
            let u := if ws.isEmpty ∧ as.isEmpty then u.withStatus 0 else u
            let u := if ws.isEmpty then u else u.withStatus (if u.status = 0 then before else u.status)
            errorExit { u with ports := s.ports }
          | ["exec"] =>
            let u := assignAll n as t
            { u with ports := s.ports, status := 0 }.setPorts u.ports
          | name :: args =>
            let u := assignAll n as t
            let u := runNamed n name args (as.map (·.1)) u
            let kept := if specialBuiltins.contains name then u.bindings
              else as.foldl (fun vs a =>
                match s.bindings.lookup a.1 with
                | some old => Document.setEntry a.1 old vs
                | none => vs.filter (·.1 != a.1)) u.bindings
            errorExit { u with
              ports := s.ports, bindings := kept
              input := if rs.any isInput then s.input else u.input }
where
  /-- A strict script ends with the first command that fails and is no condition. -/
  errorExit (s : Shell) : Shell :=
    if s.strict ∧ !s.guarded ∧ s.status ≠ 0 ∧ s.flow = .next then { s with flow := .exit } else s

/-- Runs a function, a command of the shell, or a program. -/
def runNamed : Nat → String → List String → List String → Shell → Shell
  | 0, _, _, _, s => { s with flow := .endless }
  | n + 1, name, args, passed, s =>
    match s.functions.lookup name with
    | some body =>
      let t := run n body { s with args }
      { t with
        args := s.args
        flow := match t.flow with
          | .returned => .next
          | f => f }
    | none =>
      match name with
      | ":" => s.withStatus 0
      | "true" => s.withStatus 0
      | "false" => s.withStatus 1
      | "echo" =>
        let (t, took) := s.write 1 (Format.echo args) true
        if took then t.withStatus 0 else (t.complain "echo: echo: I/O error").withStatus 1
      | "printf" =>
        match args with
        | [] => (s.complain "printf: usage: printf format [arg ...]").exitWith 2
        | format :: rest =>
          let (bytes, wrong) := Format.printf format rest
          let (t, took) := s.write 1 bytes true
          let t := wrong.foldl (fun t w => t.complain ("printf: " ++ w ++ ": expected numeric value")) t
          if took then t.withStatus (if wrong.isEmpty then 0 else 1)
          else (t.complain "printf: printf: I/O error").withStatus 1
      | "test" => runTest n "test" args s
      | "[" =>
        if args.getLast? = some "]" then runTest n "[" args.dropLast s
        else (s.complain "[: missing ]").withStatus 2
      | "exit" =>
        match countArgument s "exit" s.status args with
        | .ok k => s.exitWith (statusOf k)
        | .error t => t
      | "return" =>
        match countArgument s "return" s.status args with
        | .ok k => { s with status := statusOf k, flow := .returned }
        | .error t => t
      | "break" =>
        match countArgument s "break" 1 args with
        | .ok k => { s with status := 0, flow := .leaveLoop k }
        | .error t => t
      | "continue" =>
        match countArgument s "continue" 1 args with
        | .ok k => { s with status := 0, flow := .repeatLoop k }
        | .error t => t
      | "shift" =>
        match countArgument s "shift" 1 args with
        | .ok k =>
          if s.args.length < k then (s.complain "shift: can't shift that many").exitWith 2
          else { s with args := s.args.drop k, status := 0 }
        | .error t => t
      | "set" => (setOptions s args).withStatus 0
      | "export" => (exportAll s args).withStatus 0
      | "unset" => { s with bindings := s.bindings.filter fun v => !args.contains v.1, status := 0 }
      | "umask" => s.withStatus 0
      | "ulimit" => s.withStatus 0
      | "pwd" =>
        let here := "/" ++ "/".intercalate s.disk.workingDirectory ++ "\n"
        (s.write 1 (Text.Utf8.ofString here) true).1.withStatus 0
      | "cd" =>
        match args with
        | path :: _ =>
          match s.disk.resolve true path with
          | .ok place =>
            if (s.disk.root.find? place).any (·.isDirectory) then
              { s with disk := { s.disk with workingDirectory := place }, status := 0 }
            else (s.complain ("cd: can't cd to " ++ path)).withStatus 2
          | .error _ => (s.complain ("cd: can't cd to " ++ path)).withStatus 2
        | [] => s.withStatus 0
      | "read" =>
        let names := args.filter (· != "-r")
        let (line, t, whole) := readLine s
        (assignRead line names t).withStatus (if whole then 0 else 1)
      | "wait" =>
        let last := (s.events.filter (·.leftBehind)).foldl (fun m e => max m e.time) s.heldUntil
        (s.pause (last - s.clock)).withStatus 0
      | "eval" => runSource n (Source.read (" ".intercalate args).toList) (s.withStatus 0)
      | "." =>
        match args with
        | path :: _ =>
          match s.disk.read path with
          | .ok bytes => runSource n (Source.read ((Text.Utf8.decode? bytes).getD [])) (s.withStatus 0)
          | .error f => (s.complain (".: cannot open " ++ path ++ ": " ++ redirectFault false f)).exitWith 2
        | [] => s.withStatus 0
      | "trap" =>
        match args with
        | [] => s.withStatus 0
        | [a] => setTraps s "-" [a]
        | action :: names => setTraps s action names
      | "kill" => runKill n args s
      | "exec" =>
        match args with
        | [] => s.withStatus 0
        | program :: rest =>
          match findProgram s.disk ((s.value? "PATH").getD defaultPath) program with
          | .missing => (s.complain ("exec: " ++ program ++ ": not found")).exitWith 127
          | .denied => (s.complain ("exec: " ++ program ++ ": Permission denied")).exitWith 126
          | _ =>
            let t := runProgram n program rest passed { s with pid := s.pid - 1 }
            match t.flow with
            | .next => { t with pid := s.pid, flow := .exit, traps := [] }
            | _ => { t with pid := s.pid }
      | "command" =>
        match args with
        | program :: rest => runNamed n program rest passed { s with functions := [] }
        | [] => s.withStatus 0
      | name => runProgram n name args passed s

/-- Runs a test. -/
def runTest : Nat → String → List String → Shell → Shell
  | 0, _, _, s => { s with flow := .endless }
  | _ + 1, name, args, s =>
    let k := testStatus s.disk args
    if k = 2 then
      let wrong := (args.filter fun a => a.toList.head? != some '-' && !(Format.argument a).2).head?.getD ""
      (s.complain (name ++ ": Illegal number: " ++ wrong)).withStatus 2
    else s.withStatus k

/-- Sends a signal. -/
def runKill : Nat → List String → Shell → Shell
  | 0, _, s => { s with flow := .endless }
  | n + 1, args, s =>
    let (signal, targets) := match args with
      | "-s" :: name :: rest => (signalNumber? name, rest)
      | "--" :: rest => (some 15, rest)
      | a :: rest =>
        match a.toList with
        | '-' :: name => (signalNumber? (String.ofList name), rest)
        | _ => (some 15, a :: rest)
      | [] => (none, [])
    match signal with
    | none => (s.complain "kill: Illegal option").withStatus 2
    | some k =>
      targets.foldl (fun s target =>
        if isPast s then s
        else if target = toString s.pid then
          match s.traps.lookup (signalName k) with
          | some "" => if k = 9 then takeSignal s k else s
          | some action => if k = 9 then takeSignal s k else runSource n (Source.read action.toList) s
          | none => takeSignal s k
        else if target = toString s.parent then if k = 0 then s else s.act (.signalParent k)
        else if target = toString (s.pid + 100) then s
        else (s.complain "kill: No such process").withStatus 1) (s.withStatus 0)

/-- Runs a program. -/
def runProgram : Nat → String → List String → List String → Shell → Shell
  | 0, _, _, _, s => { s with flow := .endless }
  | n + 1, name, args, passed, s =>
    let search := (s.value? "PATH").getD defaultPath
    let given := passed.filterMap fun v => (s.bindings.lookup v).map (v, ·)
    let back (t : Shell) : Shell :=
      let u := finish n t
      let t := { s with
        disk := { u.disk with workingDirectory := s.disk.workingDirectory }, events := u.events, clock := u.clock,
        input := u.input, buffer := u.buffer, heldUntil := u.heldUntil }
      match u.flow with
      | .endless => { t with flow := .endless, status := u.status }
      | .killed k => { noteKill t k with flow := .next, status := 128 + k }
      | _ => { t with flow := .next, status := u.status }
    match findProgram s.disk search name with
    | .missing => (s.complain (name ++ ": not found")).withStatus 127
    | .denied => (s.complain (name ++ ": Permission denied")).withStatus 126
    | .tool "env" =>
      let sets := args.takeWhile fun a => a.toList.contains '='
      let given := given ++ sets.map fun a =>
        (String.ofList (a.toList.takeWhile (· != '=')), String.ofList ((a.toList.dropWhile (· != '=')).drop 1))
      match args.drop sets.length with
      | program :: rest => back (runProgram n program rest [] (s.childOf name args given))
      | [] => back (Tool.run "env" [] (s.childOf name args given))
    | .tool name => Tool.run name args s
    | .shell _ => back (runShell n name args (s.childOf name args given))
    | .file path data =>
      match interpreterLine? data with
      | some (program, arg) =>
        let args := arg.toList ++ path :: args
        match findProgram s.disk "" program with
        | .tool "env" => back (runProgram n "env" args [] (s.childOf name args given))
        | .tool tool => Tool.run tool args s
        | .shell _ => back (runShell n program args (s.childOf program args given))
        | .file .. => (s.complain (name ++ ": not found")).withStatus 127
        | .missing => (s.complain (name ++ ": not found")).withStatus 127
        | .denied => (s.complain (name ++ ": Permission denied")).withStatus 126
      | none =>
        let source := Source.read ((Text.Utf8.decode? data).getD [])
        back (runSource n source (s.childOf path args given))

/-- Runs the shell as a program: a script with its arguments, or commands that are given. -/
def runShell : Nat → String → List String → Shell → Shell
  | 0, _, _, s => { s with flow := .endless }
  | n + 1, name, args, s =>
    let startup (s : Shell) (message : String) : Shell :=
      ({ s with name, line := 0 }.complain message).exitWith 2
    match args with
    | [] => runSource n (Source.read ((Text.Utf8.decode? s.input).getD [])) { s with name, args := [], input := [] }
    | "-c" :: text :: rest =>
      runSource n (Source.read text.toList) { s with name := rest.head?.getD name, args := rest.drop 1 }
    | ["-c"] => startup s "-c requires an argument"
    | "-e" :: rest => runShell n name rest { s with strict := true }
    | "-x" :: rest => runShell n name rest s
    | "-u" :: rest => runShell n name rest s
    | "-s" :: _ =>
      runSource n (Source.read ((Text.Utf8.decode? s.input).getD [])) { s with name, args := [], input := [] }
    | "--" :: rest => runShell n name rest s
    | path :: rest =>
      match s.disk.read path with
      | .ok bytes =>
        let cs := (Text.Utf8.decode? bytes).getD (bytes.map fun b => Char.ofNat b.toNat)
        runSource n (Source.read cs) { s with name := path, args := rest }
      | .error f =>
        if f = Fault.isDirectory then s.withStatus 0
        else startup s ("cannot open " ++ path ++ ": " ++ redirectFault false f)

/-- Runs the lines of a script, and reports the mistake that ends them. -/
def runSource : Nat → Source → Shell → Shell
  | 0, _, s => { s with flow := .endless }
  | n + 1, source, s =>
    let t := runAll n source.commands s
    if isPast t then t
    else
      match source.mistake with
      | none => t
      | some m => ({ t with line := m.line }.complain m.message).exitWith 2

/-- Runs what a script has set to be run at its end. -/
def finish : Nat → Shell → Shell
  | 0, s => { s with flow := .endless }
  | n + 1, s =>
    match s.traps.lookup "EXIT", s.flow with
    | some action, .next => atEnd n action s
    | some action, .exit => atEnd n action s
    | some action, .returned => atEnd n action s
    | _, _ => s

/-- Runs a command at the end of a script, which keeps its status unless the command ends it with another. -/
def atEnd : Nat → String → Shell → Shell
  | 0, _, s => { s with flow := .endless }
  | n + 1, action, s =>
    let t := runSource n (Source.read action.toList) { s with flow := .next, traps := [] }
    match t.flow with
    | .exit => t
    | .next => { t with flow := .exit, status := s.status }
    | _ => t

end

/-- How many steps a script may take before it counts as endless. -/
def stepLimit : Nat := 400000

end AppLauncher.Program.Script
