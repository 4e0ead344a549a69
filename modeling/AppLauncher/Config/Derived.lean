import AppLauncher.Config.Basic
import AppLauncher.Duration

/-!
# What follows from the settings

The server's URL and socket address, the probe for its readiness, and the line to watch its output for.
-/

namespace AppLauncher

/-- The decimal text of a port. -/
def portText (port : UInt16) : String := String.ofList (Text.decimal port.toNat)

/-- The URL that the window loads. -/
def ServerSettings.url (s : ServerSettings) : String := "http://" ++ s.host ++ ":" ++ portText s.port

/-- The address that the probe connects to. -/
def ServerSettings.socketAddress (s : ServerSettings) : String := s.host ++ ":" ++ portText s.port

/-- How to find out that the server is ready: wait for a while, connect to its port every so often, or see a line
of its output; the last two within a time. -/
inductive Probe
  | delay (wait : Duration)
  | port (address : String) (interval timeout : Duration)
  | outputLine (timeout : Duration)
  deriving DecidableEq, Repr

/-- The probe that the settings ask for. -/
def ReadinessSettings.probe (r : ReadinessSettings) (s : ServerSettings) : Probe :=
  match r.strategy with
  | .delay => .delay (.ofMillis r.delayMillis.toNat)
  | .port => .port s.socketAddress (.ofMillis r.pollIntervalMillis.toNat) (.ofSeconds r.timeoutSeconds.toNat)
  | .outputLine => .outputLine (.ofSeconds r.timeoutSeconds.toNat)

/-- The text to look for in the lines of the server's output. -/
def ReadinessSettings.watchedLine (r : ReadinessSettings) : Option String :=
  match r.strategy with
  | .outputLine => some r.readyLine
  | .port => none
  | .delay => none

end AppLauncher
