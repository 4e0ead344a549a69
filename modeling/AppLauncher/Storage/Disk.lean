import AppLauncher.Document.Value
import AppLauncher.Fault
import AppLauncher.Text.Utf8

/-!
# Files and directories

A tree of files, directories and symbolic links, with a working directory.  A path is followed name by name from
the root or the working directory; links on the way are replaced by their targets, at most forty of them.
-/

namespace AppLauncher.Storage

open AppLauncher.Document (setEntry)

/-- An entry of a directory.  A file knows when it was last changed, in nanoseconds of the clock. -/
inductive Entry
  | file (data : List UInt8) (executable : Bool) (modified : Int)
  | directory (entries : List (String × Entry))
  | link (target : String)
  deriving Repr

/-- A tree of entries and the names that lead from its root to the working directory. -/
structure Disk where
  root : Entry
  workingDirectory : List String
  deriving Repr

namespace Entry

/-- The entry at the end of a path of plain names. -/
def find? : Entry → List String → Option Entry
  | e, [] => some e
  | directory es, name :: rest =>
    match es.lookup name with
    | some e => find? e rest
    | none => none
  | _, _ :: _ => none

/-- The tree with the entries of a directory changed. -/
def changeAt (change : List (String × Entry) → List (String × Entry)) : List String → Entry → Entry
  | [], directory es => directory (change es)
  | name :: rest, directory es =>
    match es.lookup name with
    | some e => directory (setEntry name (changeAt change rest e) es)
    | none => directory es
  | _, e => e

/-- Whether the entry is a directory. -/
def isDirectory : Entry → Bool
  | directory _ => true
  | _ => false

mutual

/-- Everything but directories in an entry that stands at a path, each with its path. -/
def leaves (path : String) : Entry → List (String × Entry)
  | directory es => leavesOfAll path es
  | e => [(path, e)]

/-- Everything but directories in the entries of the directory at a path. -/
def leavesOfAll (path : String) : List (String × Entry) → List (String × Entry)
  | [] => []
  | (name, e) :: rest => leaves (path ++ "/" ++ name) e ++ leavesOfAll path rest

end

/-- The bytes of an entry that is a file. -/
def data? : Entry → Option (List UInt8)
  | file data _ _ => some data
  | _ => none

end Entry

/-! ### Paths -/

/-- The parts of a text between the characters that `p` accepts. -/
def splitAll (p : Char → Bool) : List Char → List (List Char)
  | [] => [[]]
  | c :: rest =>
    match splitAll p rest with
    | part :: parts => if p c then [] :: part :: parts else (c :: part) :: parts
    | [] => [[c]]

/-- The names of a path; a slash at its end stands for the directory itself. -/
def names (path : String) : List String :=
  let parts := (splitAll (· == '/') path.toList).map String.ofList
  let found := parts.filter (· ≠ "")
  if path.toList.getLast? = some '/' then found ++ ["."] else found

/-- Whether a path starts at the root. -/
def isAbsolute (path : String) : Bool := path.toList.head? == some '/'

/-- A path continued by a relative one, or replaced by an absolute one. -/
def join (base path : String) : String :=
  if isAbsolute path then path
  else if base = "" ∨ base.toList.getLast? = some '/' then base ++ path
  else base ++ "/" ++ path

/-- The fault of a path that no system call takes. -/
def pathFault? (path : String) : Option Fault :=
  if path.toList.contains '\x00' then
    some (.custom .invalidInput "file name contained an unexpected NUL byte")
  else if path = "" then some Fault.missing
  else if 4096 ≤ Text.Utf8.size path then some Fault.longName
  else none

/-- How far a path was followed: to a place, to a link in a directory with names left, or to a fault. -/
inductive Walk
  | place (names : List String)
  | link (directory : List String) (target : String) (rest : List String)
  | fault (f : Fault)

/-- Follows names from a place until a link is met.  The last name's link is met only if `follow` is set. -/
def walk (root : Entry) (follow : Bool) : List String → List String → Walk
  | [], here => .place here
  | name :: rest, here =>
    match root.find? here with
    | some (.directory es) =>
      if name = "." then walk root follow rest here
      else if name = ".." then walk root follow rest here.dropLast
      else if 255 < Text.Utf8.size name then .fault Fault.longName
      else
        match es.lookup name with
        | none => .fault Fault.missing
        | some (.link target) =>
          if rest.isEmpty && !follow then .place (here ++ [name]) else .link here target rest
        | some _ => walk root follow rest (here ++ [name])
    | _ => .fault Fault.notDirectory

/-- The place at the end of names that are followed from a place through at most so many links. -/
def resolveLoop (root : Entry) (follow : Bool) : Nat → List String → List String → Except Fault (List String)
  | links, path, here =>
    match walk root follow path here with
    | .place p => .ok p
    | .fault f => .error f
    | .link directory target rest =>
      match links with
      | 0 => .error Fault.loop
      | links + 1 => resolveLoop root follow links (names target ++ rest) (if isAbsolute target then [] else directory)

/-- How many links a path may lead through. -/
def linkLimit : Nat := 40

namespace Disk

/-- The place that a path leads to. -/
def resolve (d : Disk) (follow : Bool) (path : String) : Except Fault (List String) :=
  match pathFault? path with
  | some f => .error f
  | none => resolveLoop d.root follow linkLimit (names path) (if isAbsolute path then [] else d.workingDirectory)

/-- The entry that a path leads to through all links. -/
def entry (d : Disk) (path : String) : Except Fault Entry := do
  let place ← d.resolve true path
  match d.root.find? place with
  | some e => pure e
  | none => .error Fault.missing

/-- Everything but directories below the working directory, each with its path from there. -/
def leaves (d : Disk) : List (String × Entry) :=
  ((d.root.find? d.workingDirectory).map (Entry.leaves ".")).getD []

/-- All files below the working directory, each with its path from there and its bytes. -/
def files (d : Disk) : List (String × List UInt8) := d.leaves.filterMap fun l => l.2.data?.map (l.1, ·)

/-- Whether a path leads to anything. -/
def contains (d : Disk) (path : String) : Bool := (d.entry path).isOk

/-- Whether a path leads to a regular file. -/
def isFile (d : Disk) (path : String) : Bool :=
  match d.entry path with
  | .ok (.file ..) => true
  | _ => false

/-- Whether a path leads to a directory. -/
def isDirectory (d : Disk) (path : String) : Bool :=
  match d.entry path with
  | .ok e => e.isDirectory
  | .error _ => false

/-- The bytes of the file that a path leads to. -/
def read (d : Disk) (path : String) : Except Fault (List UInt8) := do
  match ← d.entry path with
  | .file data _ _ => pure data
  | _ => .error Fault.isDirectory

/-- The entries of the directory that a path leads to. -/
def list (d : Disk) (path : String) : Except Fault (List (String × Entry)) := do
  match ← d.entry path with
  | .directory es => pure es
  | _ => .error Fault.notDirectory

/-- The tree with one file or link less. -/
def remove (d : Disk) (path : String) : Except Fault Disk := do
  let place ← d.resolve false path
  match d.root.find? place, place.getLast? with
  | some (.directory _), _ => .error Fault.isDirectory
  | some _, some name =>
    pure { d with root := d.root.changeAt (fun es => es.filter fun e => e.1 != name) place.dropLast }
  | _, _ => .error Fault.missing

/-- The place of the directory that a new entry would stand in, and its name. -/
private def parentOf (d : Disk) (path : String) : Except Fault (List String × String) :=
  match pathFault? path with
  | some f => .error f
  | none =>
    let ns := (names path).filter (· ≠ ".")
    match ns.getLast? with
    | none => .error Fault.existing
    | some name => do
      let start := if isAbsolute path then [] else d.workingDirectory
      let place ← resolveLoop d.root true linkLimit (ns.dropLast) start
      match d.root.find? place with
      | some (.directory _) => pure (place, name)
      | some _ => .error Fault.notDirectory
      | none => .error Fault.missing

/-- The tree with a new directory. -/
def makeDirectory (d : Disk) (path : String) : Except Fault Disk := do
  let (place, name) ← d.parentOf path
  match d.root.find? (place ++ [name]) with
  | some _ => .error Fault.existing
  | none =>
    if name = ".." then .error Fault.existing
    else if 255 < Text.Utf8.size name then .error Fault.longName
    else pure { d with root := d.root.changeAt (fun es => es ++ [(name, .directory [])]) place }

/-- The path without its last name; the empty path if it has only one. -/
def parentPath (path : String) : Option String :=
  let ns := (names path).filter (· ≠ ".")
  if ns.isEmpty then none
  else some ((if isAbsolute path then "/" else "") ++ "/".intercalate ns.dropLast)

private def makeAll : Nat → Disk → String → Except Fault Disk
  | 0, _, _ => .error Fault.missing
  | n + 1, d, path =>
    if path = "" then .ok d
    else
      match d.makeDirectory path with
      | .ok d => .ok d
      | .error f =>
        if f = Fault.missing then
          match parentPath path with
          | none => .error f
          | some parent =>
            match makeAll n d parent with
            | .error f => .error f
            | .ok d =>
              match d.makeDirectory path with
              | .ok d => .ok d
              | .error f => if d.isDirectory path then .ok d else .error f
        else if d.isDirectory path then .ok d else .error f

/-- The tree with a directory and all the directories above it. -/
def makeDirectories (d : Disk) (path : String) : Except Fault Disk :=
  makeAll ((names path).length + 1) d path

/-- The tree with bytes at the end of a file, which is made if it is missing. -/
def append (d : Disk) (path : String) (data : List UInt8) (now : Int) : Except Fault Disk :=
  match d.entry path with
  | .ok (.directory _) => .error Fault.isDirectory
  | .ok (.link _) => .error Fault.missing
  | .ok (.file old executable _) => do
    let place ← d.resolve true path
    match place.getLast? with
    | some name =>
      let change := setEntry name (Entry.file (old ++ data) executable now)
      pure { d with root := d.root.changeAt change place.dropLast }
    | none => .error Fault.isDirectory
  | .error f =>
    if f = Fault.missing then do
      let (place, name) ← d.parentOf path
      if path.toList.getLast? = some '/' then .error Fault.isDirectory
      else
        match d.root.find? (place ++ [name]) with
        | none =>
          let change := fun es => es ++ [(name, Entry.file data false now)]
          pure { d with root := d.root.changeAt change place }
        | some _ => .error Fault.missing
    else .error f

/-- The tree with an entry at a path, and with the directories above it. -/
def install (d : Disk) (path : String) (e : Entry) : Except Fault Disk := do
  let d ← match parentPath path with
    | some parent => d.makeDirectories parent
    | none => pure d
  let (place, name) ← d.parentOf path
  pure { d with root := d.root.changeAt (setEntry name e) place }

end Disk

end AppLauncher.Storage
