import AppLauncher.Headless.Run

/-!
# The launcher as a command

Reads the files below the working directory, runs the launcher without a screen on them, writes both streams, and
puts back what has changed.
-/

open AppLauncher AppLauncher.Storage

/-- The variables that the launcher and its server look at. -/
private def variableNames : List String := ["CONFIG_DIR", "CONFIG_ENV", "HOME", "LANG", "PATH", "RUST_LOG", "TMPDIR"]

/-- The environment of the command. -/
private def readEnvironment : IO Program.Environment := do
  let found ← variableNames.mapM fun name => do return (← IO.getEnv name).map (name, ·)
  return found.filterMap id

/-- The nanoseconds of a time since the first day of 1970. -/
private def nanosOf (t : IO.FS.SystemTime) : Int := t.sec * 1000000000 + t.nsec.toNat

/-- An entry of a directory with its name.  A link counts as leading to where it leads in the end, and every file as
one that can be run. -/
private partial def readEntry (e : IO.FS.DirEntry) : IO (String × Entry) := do
  let about ← e.path.symlinkMetadata
  let entry ← match about.type with
    | .symlink => do
      let target ← (IO.FS.realPath e.path).toBaseIO
      pure (.link (target.toOption.map (·.toString) |>.getD ""))
    | .dir => do
      let entries ← e.path.readDir
      pure (.directory (← entries.toList.mapM readEntry))
    | _ => do
      let data ← IO.FS.readBinFile e.path
      pure (.file data.toList true (nanosOf about.modified))
  return (e.fileName, entry)

/-- The entries of a directory put into a tree. -/
private def install (directory : String) (entries : List (String × Entry)) (d : Disk) : Disk :=
  entries.foldl (fun d e => (d.install (join directory e.1) e.2).toOption.getD d) d

/-- The files below the working directory, and those that stand beside the configuration. -/
private def readDisk (configDirectory : String) : IO Disk := do
  let here ← IO.currentDir
  let entries ← (← here.readDir).toList.mapM readEntry
  let empty : Disk := { root := .directory [], workingDirectory := names here.toString }
  let disk := install here.toString entries ((empty.makeDirectories here.toString).toOption.getD empty)
  let there ← IO.FS.realPath configDirectory
  if here.toString.toList.isPrefixOf there.toString.toList then return disk
  else
    let documents := (← there.readDir).toList.filter fun e => Config.Load.extension e.fileName = "toml"
    return install there.toString (← documents.mapM readEntry) disk

/-- The time in nanoseconds, as it is noted on a new file. -/
private def readClock : IO Int := do
  let (_, path) ← IO.FS.createTempFile
  let about ← path.symlinkMetadata
  IO.FS.removeFile path
  return nanosOf about.modified

/-- Deletes what is gone and writes what is new. -/
private def putBack (before after : Disk) : IO Unit := do
  let left := after.leaves
  for (path, _) in before.leaves do
    if (left.lookup path).isNone then IO.FS.removeFile path
  let known := before.files
  for (path, data) in after.files do
    if known.lookup path ≠ some data then
      IO.FS.createDirAll ((Disk.parentPath path).getD ".")
      IO.FS.writeBinFile path ⟨data.toArray⟩

/-- The code of a command that a signal has ended. -/
private def signalled : UInt32 := 130

def main : IO UInt32 := do
  let environment ← readEnvironment
  let program ← IO.appPath
  let programDirectory := (program.parent.map (·.toString)).getD "."
  let disk ← readDisk (Startup.configDirectory programDirectory environment)
  let now ← readClock
  let r := Headless.program programDirectory environment (.ofSeconds (now.toNat / 1000000000)) now disk
  putBack disk r.disk
  let output ← IO.getStdout
  output.write ⟨r.stdout.toArray⟩
  let errors ← IO.getStderr
  for line in r.lines do
    errors.putStrLn line
  errors.write ⟨r.serverErrors.toArray⟩
  return (r.code?.map (·.toUInt32)).getD signalled
