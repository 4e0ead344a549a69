import AppLauncher.Config.Lenient
import AppLauncher.Document.Toml.Reader
import AppLauncher.Storage.Disk

/-!
# Loading a configuration from files

A base file, a file for the environment if one is named, and a local file are laid one over the other.  The base
file must be there; the others may be missing or unreadable, but what can be read must be TOML.
-/

namespace AppLauncher.Config.Load

open AppLauncher.Document AppLauncher.Storage

/-- Why no configuration was loaded. -/
inductive LoadError
  | notFound (name : String)
  | unknownFormat (path : String)
  | notText
  | notToml (file : String)
  | unreadable (e : Lenient.ReadError)

/-- What the caller reports around an error. -/
def LoadError.context : LoadError → String
  | unreadable _ => "Failed to deserialize configuration"
  | _ => "Failed to build configuration"

/-- The absolute form of a path. -/
def absolute (d : Disk) (path : String) : String :=
  join ("/" ++ "/".intercalate d.workingDirectory) path

/-- The extension of the last name of a path. -/
def extension (path : String) : String :=
  let name := ((names path).filter (· ≠ ".")).getLast?.getD ""
  match name.toList.reverse.span (· ≠ '.') with
  | (after, '.' :: before) => if before.isEmpty ∨ name = ".." then "" else String.ofList after.reverse
  | _ => ""

/-- The path with `.toml` after its last name. -/
def withExtension (path : String) : String :=
  let kept := (path.toList.reverse.dropWhile (· == '/')).reverse
  let kept := if (names path).getLast? = some "." && !(path.toList.getLast? = some '/')
    then ((kept.dropLast).reverse.dropWhile (· == '/')).reverse else kept
  if (names path).filter (· ≠ ".") |>.getLast? |>.any (· == "..") then path
  else String.ofList kept ++ ".toml"

/-- The file of a layer: the path itself if it is a file of the format, else the path with the extension. -/
def findFile (d : Disk) (name : String) : Except LoadError String :=
  let path := absolute d name
  if d.isFile path then
    if extension path = "toml" then .ok path else .error (.unknownFormat path)
  else
    let path := withExtension path
    if d.isFile path then .ok path else .error (.notFound name)

/-- The way from the working directory to an absolute path. -/
def relative (d : Disk) (path : String) : String :=
  let rec strip : List String → List String → List String
    | a :: as, b :: bs => if a = b then strip as bs else ".." :: (bs.map fun _ => "..") ++ a :: as
    | as, bs => (bs.map fun _ => "..") ++ as
  "/".intercalate (strip ((names path).filter (· ≠ ".")) d.workingDirectory)

/-- The document of a layer and the name that messages give its file. -/
def readLayer (d : Disk) (name : String) : Except LoadError (String × Value) := do
  let path ← findFile d name
  match (d.read path).toOption.bind Text.Utf8.decode? with
  | none => .error .notText
  | some cs =>
    match Toml.read? cs with
    | some v => .ok (relative d path, v)
    | none => .error (.notToml (relative d path))

/-- A layer that may be missing or no text; then it is empty. -/
def readOptional (d : Disk) (name : String) : Except LoadError (List (String × Value)) :=
  match readLayer d name with
  | .ok layer => .ok [layer]
  | .error (.notToml file) => .error (.notToml file)
  | .error _ => .ok []

/-- The layers of a base name in an environment. -/
def layers (d : Disk) (base : String) (environment : Option String) :
    Except LoadError (List (String × Value)) := do
  let first ← readLayer d base
  let second ← match environment with
    | some e => readOptional d (base ++ "." ++ e)
    | none => .ok []
  let third ← readOptional d (base ++ ".local")
  pure (first :: second ++ third)

/-- The configuration of a base name in an environment. -/
def fromFiles (d : Disk) (base : String) (environment : Option String) : Except LoadError Config := do
  let found ← layers d base environment
  match Lenient.read (Layer.merge found) with
  | .ok c => .ok c
  | .error e => .error (.unreadable e)

/-- The text of an error without its context. -/
def LoadError.message : LoadError → String
  | notFound name => "configuration file \"" ++ name ++ "\" not found"
  | unknownFormat path => "configuration file \"" ++ path ++ "\" is not of a registered file format"
  | notText => "stream did not contain valid UTF-8"
  | notToml file => file
  | unreadable e => e.message

end AppLauncher.Config.Load
