import AppLauncher.Program.Script.Format
import AppLauncher.Program.Script.Shell

/-!
# The tools of scripts

The programs that come with the system, as far as scripts use them: what they write, how long they take, and their
exit status.
-/

namespace AppLauncher.Program.Script

open AppLauncher.Storage

/-- The directories that hold the system's programs. -/
def systemDirectories : List String :=
  ["/usr/local/sbin", "/usr/local/bin", "/usr/sbin", "/usr/bin", "/sbin", "/bin"]

/-- Where programs are looked for unless a script says otherwise. -/
def defaultPath : String := ":".intercalate systemDirectories

/-- The names of the shell. -/
def shellNames : List String := ["sh", "dash", "bash"]

/-- The system's programs apart from the shell. -/
def toolNames : List String :=
  ["true", "false", "echo", "cat", "sleep", "printf", "head", "tail", "tr", "seq", "ls", "pwd", "test", "[", "wc",
    "env"]

/-- The name of the system's program at a path. -/
def systemProgram? (path : String) : Option String :=
  let parts := splitAll (· == '/') path.toList
  match parts.reverse with
  | last :: above =>
    let directory := String.ofList (List.intercalate ['/'] above.reverse)
    let name := String.ofList last
    if ["/usr/bin", "/bin"].contains directory ∧ (shellNames.contains name ∨ toolNames.contains name) then some name
    else none
  | [] => none

/-- The milliseconds that a number of seconds with a fraction and a unit spells, a started one counted as whole. -/
def millisOf? (s : String) : Option Nat :=
  let whole := s.toList.takeWhile Text.isDigit
  let rest := s.toList.drop whole.length
  let (part, unit) := match rest with
    | '.' :: rest => (rest.takeWhile Text.isDigit, rest.dropWhile Text.isDigit)
    | rest => ([], rest)
  let scale := match unit with
    | [] => some 1
    | ['s'] => some 1
    | ['m'] => some 60
    | ['h'] => some 3600
    | ['d'] => some 86400
    | _ => none
  match scale with
  | some k =>
    if whole.isEmpty ∧ part.isEmpty then none
    else
      let n := Text.ofDigits 10 0 ((whole ++ part).filterMap Text.digit?)
      let d := Nat.pow 10 part.length
      some ((n * 1000 * k + (d - 1)) / d)
  | none => if s = "infinity" ∨ s = "inf" then some (horizon + 1) else none

/-- The bytes of a file. -/
def readFile (d : Disk) (path : String) : Except Fault (List UInt8) :=
  if path = "/dev/null" then .ok [] else d.read path

/-- The text of a fault without its number. -/
def faultText (f : Fault) : String :=
  match f with
  | .system n => (systemTexts.lookup n).getD f.text
  | f => f.text

/-- The bytes up to the end of line number `n`. -/
def firstLines : Nat → List UInt8 → List UInt8
  | 0, _ => []
  | _ + 1, [] => []
  | n + 1, b :: rest => if b = 10 then b :: firstLines n rest else b :: firstLines (n + 1) rest

/-- The characters of a set with its ranges and escapes. -/
def setOf : List Char → List UInt8
  | '\\' :: c :: rest =>
    match Format.escape? c with
    | some b => b :: setOf rest
    | none =>
      let ds := Format.octal 3 (c :: rest)
      if ds.isEmpty then Text.Utf8.encode [c] ++ setOf rest
      else (Format.octalValue ds).toUInt8 :: setOf (rest.drop (ds.length - 1))
  | a :: '-' :: b :: rest =>
    if a ≤ b ∧ b.toNat < 128 then
      (List.range (b.toNat - a.toNat + 1)).map (fun i => (a.toNat + i).toUInt8) ++ setOf rest
    else Text.Utf8.encode [a, '-', b] ++ setOf rest
  | c :: rest => Text.Utf8.encode [c] ++ setOf rest
  | [] => []
termination_by cs => cs.length
decreasing_by all_goals (simp only [List.length_drop, List.length_cons]; omega)

/-- A byte replaced by its partner in another set, whose last byte stands for all that are missing. -/
def exchange (source target : List UInt8) (b : UInt8) : UInt8 :=
  match source.idxOf? b with
  | some i => (target[i]?).getD (target.getLast?.getD b)
  | none => b

/-- The value of a test with its operands. -/
def testValue (d : Disk) : List String → Option Bool
  | [] => some false
  | ["!", a] => some (a == "")
  | [a] => some (a != "")
  | "!" :: rest => (testValue d rest).map (!·)
  | ["-z", a] => some (a == "")
  | ["-n", a] => some (a != "")
  | ["-e", a] => some (d.contains a)
  | ["-f", a] => some (d.isFile a)
  | ["-d", a] => some (d.isDirectory a)
  | ["-r", a] => some (d.contains a)
  | ["-w", a] => some (d.contains a)
  | ["-x", a] => some (match d.entry a with
    | .ok (.file _ executable _) => executable
    | .ok (.directory _) => true
    | _ => false)
  | ["-s", a] => some (match d.entry a with
    | .ok (.file data _ _) => !data.isEmpty
    | .ok (.directory _) => true
    | _ => false)
  | ["-L", a] => some (match d.resolve false a with
    | .ok place => match d.root.find? place with
      | some (.link _) => true
      | _ => false
    | _ => false)
  | [a, "=", b] => some (a == b)
  | [a, "==", b] => some (a == b)
  | [a, "!=", b] => some (a != b)
  | [a, o, b] =>
    let (x, wholeX) := Format.argument a
    let (y, wholeY) := Format.argument b
    if !(wholeX && wholeY) || a == "" || b == "" then none
    else
      match o with
      | "-eq" => some (x == y)
      | "-ne" => some (x != y)
      | "-lt" => some (decide (x < y))
      | "-le" => some (decide (x ≤ y))
      | "-gt" => some (decide (y < x))
      | "-ge" => some (decide (y ≤ x))
      | _ => none
  | _ => none

/-- The value of tests joined by "and" and "or". -/
def testJoined (d : Disk) (args : List String) : Option Bool :=
  let parts := splitOn "-o" args
  parts.foldl (fun v part =>
    let all := (splitOn "-a" part).foldl (fun w t =>
      match w, testValue d t with
      | some a, some b => some (a && b)
      | _, _ => none) (some true)
    match v, all with
    | some a, some b => some (a || b)
    | _, _ => none) (some false)
where
  /-- The parts of a list between the places of a word. -/
  splitOn (word : String) : List String → List (List String)
    | [] => [[]]
    | a :: rest =>
      match splitOn word rest with
      | part :: parts => if a = word then [] :: part :: parts else (a :: part) :: parts
      | [] => [[a]]

/-- What a test gives as a status. -/
def testStatus (d : Disk) (args : List String) : Nat :=
  let value := if args.length ≤ 3 then testValue d args else testJoined d args
  match value with
  | some true => 0
  | some false => 1
  | none => 2

namespace Tool

/-- Files, or the input where none is named, read one after the other. -/
private def readAll (tool : String) (opening : String → String) :
    List String → Shell → List UInt8 → Nat → Shell × List UInt8 × Nat
  | [], s, bytes, status => (s, bytes, status)
  | "-" :: rest, s, bytes, status =>
    readAll tool opening rest { s with input := [] } (bytes ++ s.input) status
  | path :: rest, s, bytes, status =>
    match readFile s.disk path with
    | .ok more => readAll tool opening rest s (bytes ++ more) status
    | .error f =>
      readAll tool opening rest (s.report (tool ++ ": " ++ opening path ++ faultText f)) bytes (max status 1)

private def quotedPath (path : String) : String := "cannot open '" ++ path ++ "' for reading: "

/-- The count that `-c` or `-n` gives, whether it counts bytes, and the files. -/
private def counted : List String → Option (Bool × Nat × List String)
  | "-c" :: n :: rest => (Text.natOf? n.toList).map fun k => (true, k, rest)
  | "-n" :: n :: rest => (Text.natOf? n.toList).map fun k => (false, k, rest)
  | arg :: rest =>
    match arg.toList with
    | '-' :: 'c' :: ds => (Text.natOf? ds).map fun k => (true, k, rest)
    | '-' :: 'n' :: ds => (Text.natOf? ds).map fun k => (false, k, rest)
    | '-' :: ds => (Text.natOf? ds).map fun k => (false, k, rest)
    | _ => some (false, 10, arg :: rest)
  | [] => some (false, 10, [])

/-- Bytes that a program writes to its output. -/
private def output (s : Shell) (bytes : List UInt8) (status : Nat) : Shell :=
  (s.write 1 bytes false).1.withStatus status

private def lineCount (bytes : List UInt8) : Nat := bytes.count 10

private def numbers (first step last : Int) : Nat → List Int
  | 0 => []
  | n + 1 =>
    if (0 < step ∧ last < first) ∨ (step < 0 ∧ first < last) ∨ step = 0 then []
    else first :: numbers (first + step) step last n

private def printNumbers (s : Shell) (first step last : Int) : Shell :=
  let ns := numbers first step last 100000
  output s (ns.flatMap fun n => Text.Utf8.ofString (toString n ++ "\n")) 0

/-- The names that a listing shows, in the order of their bytes. -/
private def visible (es : List (String × Entry)) : List String :=
  ((es.map (·.1)).filter fun n => n.toList.head? != some '.').mergeSort fun a b =>
    !(Text.Utf8.ofString b).lex (Text.Utf8.ofString a) fun x y => decide (x.toNat < y.toNat)

/-- Writes the names in directories, one a line. -/
private def listAll (paths : List String) (s : Shell) : Shell :=
  paths.foldl (fun s path =>
    match s.disk.entry path with
    | .ok (.directory es) => output s ((visible es).flatMap fun n => Text.Utf8.ofString (n ++ "\n")) s.status
    | .ok _ => output s (Text.Utf8.ofString (path ++ "\n")) s.status
    | .error f => (s.report ("ls: cannot access '" ++ path ++ "': " ++ faultText f)).withStatus 2) s

/-- Runs a program of the system. -/
def run (name : String) (args : List String) (s : Shell) : Shell :=
  match name with
  | "true" => s.withStatus 0
  | "false" => s.withStatus 1
  | "echo" =>
    match args with
    | "-n" :: rest => output s (Text.Utf8.ofString (" ".intercalate rest)) 0
    | "-e" :: rest => output s (Format.echo rest) 0
    | "-ne" :: rest => output s (Format.echo ("-n" :: rest)) 0
    | "-en" :: rest => output s (Format.echo ("-n" :: rest)) 0
    | "-E" :: rest => output s (Text.Utf8.ofString (" ".intercalate rest ++ "\n")) 0
    | args => output s (Text.Utf8.ofString (" ".intercalate args ++ "\n")) 0
  | "printf" =>
    match args with
    | format :: rest =>
      let (bytes, wrong) := Format.printf format rest
      let s := output s bytes (if wrong.isEmpty then 0 else 1)
      wrong.foldl (fun s w => s.report ("printf: '" ++ w ++ "': expected a numeric value")) s
    | [] => (s.report "printf: missing operand\nTry 'printf --help' for more information.").withStatus 1
  | "cat" =>
    let files := args.filter fun a => a == "-" || a.toList.head? != some '-'
    let (s, bytes, status) := readAll "cat" (· ++ ": ") (if files.isEmpty then ["-"] else files) s [] 0
    output s bytes status
  | "head" =>
    match counted args with
    | some (true, n, ["/dev/zero"]) => output s (List.replicate n 0) 0
    | some (asBytes, n, files) =>
      let (s, bytes, status) := readAll "head" quotedPath (if files.isEmpty then ["-"] else files) s [] 0
      output s (if asBytes then bytes.take n else firstLines n bytes) status
    | none => s.withStatus 1
  | "tail" =>
    match counted args with
    | some (asBytes, n, files) =>
      let (s, bytes, status) := readAll "tail" quotedPath (if files.isEmpty then ["-"] else files) s [] 0
      let lines := lineCount bytes + if bytes.getLast?.any (· != 10) then 1 else 0
      let dropped := firstLines (lines - n) bytes
      output s (bytes.drop (if asBytes then bytes.length - n else dropped.length)) status
    | none => s.withStatus 1
  | "tr" =>
    let bytes := s.input
    let s := { s with input := [] }
    match args with
    | ["-d", a] => output s (bytes.filter fun b => !(setOf a.toList).contains b) 0
    | [a, b] =>
      let source := setOf a.toList
      let target := setOf b.toList
      output s (bytes.map (exchange source target)) 0
    | _ => (s.report "tr: missing operand\nTry 'tr --help' for more information.").withStatus 1
  | "wc" =>
    let (files, s) := (args.filter fun a => a.toList.head? != some '-', s)
    let (s, bytes, status) := readAll "wc" (· ++ ": ") (if files.isEmpty then ["-"] else files) s [] 0
    let n := if args.contains "-l" then lineCount bytes else bytes.length
    output s (Text.Utf8.ofString (" ".intercalate (toString n :: files) ++ "\n")) status
  | "seq" =>
    match args.map Format.argument with
    | [(a, true)] => printNumbers s 1 1 a
    | [(a, true), (b, true)] => printNumbers s a 1 b
    | [(a, true), (k, true), (b, true)] => printNumbers s a k b
    | _ => (s.report "seq: missing operand\nTry 'seq --help' for more information.").withStatus 1
  | "ls" =>
    let paths := args.filter fun a => a.toList.head? != some '-'
    listAll (if paths.isEmpty then ["."] else paths) (s.withStatus 0)
  | "pwd" => output s (Text.Utf8.ofString ("/" ++ "/".intercalate s.disk.workingDirectory ++ "\n")) 0
  | "test" => s.withStatus (testStatus s.disk args)
  | "[" =>
    if args.getLast? = some "]" then s.withStatus (testStatus s.disk args.dropLast)
    else (s.report "[: missing ']'").withStatus 2
  | "env" =>
    output s ((s.bindings.filter fun v => s.exported.contains v.1).flatMap fun v =>
      Text.Utf8.ofString (v.1 ++ "=" ++ v.2 ++ "\n")) 0
  | "sleep" =>
    match args.mapM millisOf? with
    | some [] => (s.report "sleep: missing operand\nTry 'sleep --help' for more information.").withStatus 1
    | some ms => (s.pause (ms.foldl (· + ·) 0)).withStatus 0
    | none =>
      let wrong := args.filter fun a => (millisOf? a).isNone
      let s := wrong.foldl (fun s a => s.report ("sleep: invalid time interval '" ++ a ++ "'")) s
      (s.report "Try 'sleep --help' for more information.").withStatus 1
  | _ => s.withStatus 127

end Tool

end AppLauncher.Program.Script
