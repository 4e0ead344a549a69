import AppLauncher.Text.Digits
import AppLauncher.Text.Trim
import AppLauncher.Text.Utf8
import AppLauncher.Word

/-!
# Versions of a build

A build is told its versions by two variables of the environment.  Without them it asks git for the last tag, the
number of commits and the name of the last commit, and where git gives no answer it falls back on what it knows.
-/

namespace AppLauncher.Build

/-- The packages that are built: the launcher itself and the desktop program around it. -/
inductive Package
  | launcher
  | desktop
  deriving DecidableEq, Repr

/-- The version that a package has without git. -/
def Package.ownVersion : Package → String
  | launcher => "1.0.0"
  | desktop => "0.1.0"

/-- What asking git for something came to: git could not be started, or it ended, with success or without, and
wrote something. -/
inductive Reply
  | unavailable
  | ended (success : Bool) (output : List UInt8)
  deriving DecidableEq, Repr

/-- The replies to the questions of a build: the last tag, the number of commits, the name of the last commit, and
whether the files are as committed. -/
structure Git where
  tag : Reply
  count : Reply
  commit : Reply
  unchanged : Reply
  deriving DecidableEq, Repr

/-- The text of a successful reply without the blanks around it. -/
def Reply.text? : Reply → Option (List Char)
  | ended true output => (Text.Utf8.decode? output).map Text.trim
  | _ => none

/-- The text of a successful reply that is not blank. -/
def Reply.filled? (r : Reply) : Option (List Char) :=
  match r.text? with
  | some [] => none
  | t => t

/-- Whether git says that the files are not as committed. -/
def Reply.isFailure : Reply → Bool
  | ended false _ => true
  | _ => false

/-- The versions of a build. -/
structure Versions where
  package : String
  file : String
  build : String
  deriving DecidableEq, Repr

/-- The versions that the environment gives. -/
def Versions.given (package file : String) : Versions := ⟨package, file, file ++ "+ci"⟩

/-- The versions of a base, a number of commits, the name of a commit and what is added to it. -/
def Versions.counted (base count commit added : List Char) : Versions :=
  ⟨String.ofList base, String.ofList (base ++ '.' :: count),
    String.ofList (base ++ "+build.".toList ++ count ++ '.' :: commit ++ added)⟩

/-- A tag without the letters in front of its number. -/
def baseOfTag (cs : List Char) : List Char := cs.dropWhile (· == 'v')

/-- The versions of the launcher without the environment.  Blank replies are none, the number of commits is a number
of 32 bits, and changed files are marked. -/
def launcherVersions (own : String) (g : Git) : Versions :=
  let base := (g.tag.filled?.map baseOfTag).getD own.toList
  let count := (g.count.filled?.bind (Text.unsigned? (wordCount 32))).getD 0
  let commit := g.commit.filled?.getD "unknown".toList
  .counted base (Text.decimal count) commit (if g.unchanged.isFailure then "-dirty".toList else [])

/-- The versions of the desktop program without the environment.  Replies are taken as they are. -/
def desktopVersions (own : String) (g : Git) : Versions :=
  let base := (g.tag.text?.map baseOfTag).getD own.toList
  let count := g.count.text?.getD "0".toList
  let commit := g.commit.text?.getD "unknown".toList
  .counted base count commit []

/-- The versions of a package whose own version is `own`. -/
def versions (p : Package) (own : String) (package file : Option String) (g : Git) : Versions :=
  match package, file with
  | some a, some b => .given a b
  | _, _ => match p with
    | .launcher => launcherVersions own g
    | .desktop => desktopVersions own g

/-- Whether the files are compared with the last commit, and what that writes goes to the output. -/
def asksForChanges (p : Package) (package file : Option String) : Bool :=
  p == .launcher && !(package.isSome && file.isSome)

/-- The variables that a build is done again for. -/
def watchedLines : List String :=
  ["cargo:rerun-if-env-changed=PACKAGE_VERSION", "cargo:rerun-if-env-changed=FILE_VERSION"]

/-- The lines that hand the versions to the build. -/
def versionLines (v : Versions) : List String := [
  "cargo:rustc-env=PACKAGE_VERSION=" ++ v.package,
  "cargo:rustc-env=FILE_VERSION=" ++ v.file,
  "cargo:rustc-env=BUILD_INFO=" ++ v.build]

/-- The files that the launcher is built again for. -/
def closingLines : Package → List String
  | .launcher => ["cargo:rerun-if-changed=../.git/HEAD", "cargo:rerun-if-changed=../.git/refs/heads"]
  | .desktop => []

/-- The lines as they are written. -/
def linesOf (ls : List String) : List UInt8 := ls.flatMap fun l => Text.Utf8.ofString (l ++ "\n")

/-- What comparing the files wrote where it was asked for. -/
def compared (p : Package) (package file : Option String) (g : Git) : List UInt8 :=
  match asksForChanges p package file, g.unchanged with
  | true, .ended _ bytes => bytes
  | _, _ => []

/-- What the build writes: its lines, with what comparing the files wrote. -/
def output (p : Package) (package file : Option String) (g : Git) : List UInt8 :=
  linesOf watchedLines ++ compared p package file g ++
    linesOf (versionLines (versions p p.ownVersion package file g)) ++ linesOf (closingLines p)

end AppLauncher.Build
