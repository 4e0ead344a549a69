import AppLauncher.Config.Load
import AppLauncher.Config.Render
import AppLauncher.Log
import AppLauncher.Logs.File
import AppLauncher.Logs.Pruning
import AppLauncher.Program.Launch

/-!
# Startup

What is done before a launcher is made: the configuration is loaded, with the defaults in place of one that cannot
be loaded, and the log begins.  What happens before the log has begun is written as plain text.
-/

namespace AppLauncher.Startup

open AppLauncher.Program AppLauncher.Storage

/-- The version that the log and the error page show. -/
def buildInfo : String := "1.0.0.0+ci"

/-- The directory with the configuration: the one that the environment names, else the program's own. -/
def configDirectory (programDirectory : String) (environment : Environment) : String :=
  (environment.lookup "CONFIG_DIR").getD programDirectory

/-- The configuration, and the text about where it comes from. -/
def loadConfig (programDirectory : String) (environment : Environment) (d : Disk) : Config × String :=
  let base := configDirectory programDirectory environment ++ "/config"
  match Config.Load.fromFiles d base (environment.lookup "CONFIG_ENV") with
  | .ok c => (c, "Configuration loaded successfully from " ++ base)
  | .error e => ({}, "Failed to load configuration: " ++ e.context ++ ": " ++ e.message ++ ", using defaults")

/-- A log that has begun: which lines are shown and the file that they are also written to. -/
structure Target where
  filter : Log.Filter
  file? : Option String
  deriving Repr

/-- The beginning of the log: the disk, the plain texts about it, and the log, unless its file cannot be made. -/
structure LogStart where
  disk : Disk
  notes : List String
  target? : Except Fault Target

/-- Begins the log.  Old log files are pruned before the new one is made. -/
def beginLog (s : LoggingSettings) (filter : Log.Filter) (stamp : Logs.Stamp) (now : Int) (d : Disk) : LogStart :=
  if !s.enabled then ⟨d, [], .ok ⟨filter, none⟩⟩
  else
    let (d, notes) := match d.makeDirectories s.directory with
      | .ok d => (d, [])
      | .error f => (d, ["Failed to create log directory " ++ s.directory ++ ": " ++ f.text])
    let p := Logs.prune s now d
    let notes := notes ++ p.notes
    let path := Logs.filePath s stamp
    match Logs.openFile path now p.disk with
    | .ok d => ⟨d, notes, .ok ⟨filter, some path⟩⟩
    | .error f => ⟨p.disk, notes, .error f⟩

/-- The first lines of the log. -/
def firstLines (c : Config) : List Log.Line :=
  let files :=
    if c.logging.enabled then
      [Log.info ("File logging enabled: directory=" ++ c.logging.directory ++ ", prefix=" ++ c.logging.filePrefix
        ++ ", rotation=" ++ c.logging.rotation)]
    else []
  let effective := match c.toToml with
    | .ok text => Log.debug ("Effective configuration:\n" ++ text)
    | .error e => Log.warn (Config.Render.failureContext ++ ": " ++ e.message)
  [Log.info "Starting CalcDesk launcher...", Log.info ("Launcher Version: " ++ buildInfo)] ++ files ++ [effective]

/-- The lines that a log shows, each as it stands in a file or on a terminal. -/
def Target.shown (t : Target) (lines : List Log.Line) : List String :=
  (lines.filter t.filter.shows).map (·.shown)

/-- The disk after lines were written to the log. -/
def Target.write (t : Target) (lines : List Log.Line) (now : Int) (d : Disk) : Disk :=
  match t.file? with
  | none => d
  | some path =>
    let data := (t.shown lines).flatMap fun l => Text.Utf8.ofString (l ++ "\n")
    (d.append path data now).toOption.getD d

/-- A startup that is over: the disk, the configuration, the plain texts, and the log with its first lines, unless
the log's file cannot be made. -/
structure Prepared where
  disk : Disk
  config : Config
  notes : List String
  target? : Except Fault Target

/-- Loads the configuration and begins the log. -/
def prepare (programDirectory : String) (environment : Environment) (stamp : Logs.Stamp) (now : Int) (d : Disk) :
    Prepared :=
  let (config, note) := loadConfig programDirectory environment d
  let filter := match environment.lookup "RUST_LOG" with
    | some text => .ofText text
    | none => .default
  let l := beginLog config.logging filter stamp now d
  let disk := match l.target? with
    | .ok t => t.write (firstLines config) now l.disk
    | .error _ => l.disk
  ⟨disk, config, note :: l.notes, l.target?⟩

end AppLauncher.Startup
