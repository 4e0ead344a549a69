import AppLauncher.Program.Launch
import AppLauncher.Server.Running

/-!
# Starting the server

The server is started in a world of files and programs, by its program with one argument.
-/

namespace AppLauncher.Server

open AppLauncher.Program

/-- The files, and what comes of starting a program with arguments when the files are so. -/
structure World where
  disk : Storage.Disk
  launch : Storage.Disk → String → List String → Except Fault Behaviour

/-- The world in which programs are started with an environment. -/
def World.ofEnvironment (d : Storage.Disk) (environment : Environment) : World :=
  ⟨d, fun d => Program.launch d environment⟩

/-- Starts the server of the settings. -/
def spawn (s : ServerSettings) (readyLine : Option String) (w : World) (clock pid : Nat) :
    Except LauncherError (Running × List Log.Line) :=
  match w.launch w.disk s.interpreter [s.script] with
  | .error f => .error (.spawn s.interpreter f)
  | .ok b =>
    let line := "Started server process: " ++ s.interpreter ++ " " ++ s.script ++ " pid=" ++ pidText pid
    .ok (.start clock pid b readyLine, [Log.info line])

end AppLauncher.Server
