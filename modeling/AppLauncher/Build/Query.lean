import AppLauncher.Build.Version
import AppLauncher.Program.Launch

/-!
# Asking git

The questions of a build as runs of a program named git.
-/

namespace AppLauncher.Build

open AppLauncher.Program AppLauncher.Storage

/-- What a behaviour writes to its standard output. -/
def written (b : Behaviour) : List UInt8 :=
  b.events.flatMap fun e => match e.action with
    | .write .stdout bytes _ => bytes
    | _ => []

/-- The reply of a run. -/
def Reply.ofRun : Except Fault Behaviour → Reply
  | .error _ => unavailable
  | .ok b => ended (match b.ending with
    | some (_, .code n) => n == 0
    | _ => false) (written b)

/-- Asks git with some arguments. -/
def ask (d : Disk) (environment : Environment) (args : List String) : Reply :=
  .ofRun (launch d environment "git" args)

/-- The replies of the git that an environment leads to. -/
def Git.ofEnvironment (d : Disk) (environment : Environment) : Git where
  tag := ask d environment ["describe", "--tags", "--abbrev=0", "--match", "v[0-9]*"]
  count := ask d environment ["rev-list", "--count", "HEAD"]
  commit := ask d environment ["rev-parse", "--short", "HEAD"]
  unchanged := ask d environment ["diff", "--quiet"]

/-- What the build of a package writes in an environment. -/
def outputIn (p : Package) (d : Disk) (environment : Environment) : List UInt8 :=
  output p (environment.lookup "PACKAGE_VERSION") (environment.lookup "FILE_VERSION")
    (Git.ofEnvironment d environment)

end AppLauncher.Build
