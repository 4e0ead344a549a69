/-!
# Configuration

What the launcher can be told: the cache to clear, the server to start, the window to show it in, how to know that
the server is ready, whether scripts go into the window, and the log files.  Every setting has a default.
-/

namespace AppLauncher

/-- What clearing the cache does after a deletion that failed. -/
inductive FailureAction
  | skip
  | abort
  deriving DecidableEq, Repr

/-- How the launcher tells that the server is ready. -/
inductive ReadinessStrategy
  | port
  | delay
  | outputLine
  deriving DecidableEq, Repr

/-- The directory whose entries are deleted before the server is used, and what to do about failures. -/
structure CacheSettings where
  directory : String := "./static/images"
  clearOnStart : Bool := true
  onNotFound : FailureAction := .skip
  onPermissionDenied : FailureAction := .abort
  onInUse : FailureAction := .abort
  onOther : FailureAction := .abort
  deriving DecidableEq, Repr

/-- The server's program, its only argument, and where it listens. -/
structure ServerSettings where
  interpreter : String := "./interpreters/Python-3.11.1/python"
  script : String := "app.py"
  host : String := "127.0.0.1"
  port : UInt16 := 5000
  deriving DecidableEq, Repr

/-- The window's title and size. -/
structure WindowSettings where
  title : String := "CalcDesk"
  width : UInt32 := 800
  height : UInt32 := 600
  deriving DecidableEq, Repr

/-- The strategy for readiness and the numbers that each strategy needs. -/
structure ReadinessSettings where
  strategy : ReadinessStrategy := .port
  delayMillis : UInt64 := 1000
  pollIntervalMillis : UInt64 := 100
  timeoutSeconds : UInt64 := 30
  readyLine : String := "Running on"
  deriving DecidableEq, Repr

/-- Whether the window gets the launcher's scripts. -/
structure ClientSettings where
  enabled : Bool := true
  deriving DecidableEq, Repr

/-- Where log files go, when a new one begins, and how many are kept; a limit of zero is none. -/
structure LoggingSettings where
  enabled : Bool := true
  directory : String := "logs"
  filePrefix : String := "calcdesk"
  rotation : String := "daily"
  maxFiles : UInt32 := 30
  maxAgeDays : UInt32 := 90
  deriving DecidableEq, Repr

/-- The whole configuration. -/
structure Config where
  cache : CacheSettings := {}
  server : ServerSettings := {}
  window : WindowSettings := {}
  readiness : ReadinessSettings := {}
  client : ClientSettings := {}
  logging : LoggingSettings := {}
  deriving DecidableEq, Repr

/-- The names that a choice is written with. -/
def FailureAction.names : List (String × FailureAction) := [("skip", skip), ("abort", abort)]

/-- The names that a choice is written with. -/
def ReadinessStrategy.names : List (String × ReadinessStrategy) :=
  [("port", port), ("delay", delay), ("output_line", outputLine)]

/-- The name of an action. -/
def FailureAction.name : FailureAction → String
  | skip => "skip"
  | abort => "abort"

/-- The name of a strategy. -/
def ReadinessStrategy.name : ReadinessStrategy → String
  | port => "port"
  | delay => "delay"
  | outputLine => "output_line"

end AppLauncher
