import AppLauncher.Config.Basic
import AppLauncher.Storage.Disk
import AppLauncher.Text.Quoted

/-!
# Pruning old log files

Of the log files, the regular files whose names begin with the configured text, only so many are kept and only so
long.  The newest stay.  A limit of zero is none.
-/

namespace AppLauncher.Logs

open AppLauncher.Storage

/-- A log file: its name and when it was last changed, in nanoseconds. -/
structure LogFile where
  name : String
  modified : Int
  deriving DecidableEq, Repr

/-- The entry of a directory as a log file, if it is one. -/
def LogFile.ofEntry? (start : String) : String × Entry → Option LogFile
  | (name, .file _ _ modified) =>
    if start.toList.isPrefixOf name.toList then some ⟨name, modified⟩ else none
  | _ => none

/-- The log files of a listing, the newest first; of equally old ones the one listed first. -/
def newestFirst (files : List LogFile) : List LogFile :=
  files.mergeSort fun a b => decide (b.modified ≤ a.modified)

/-- The nanoseconds of a day. -/
def dayNanos : Nat := 24 * 60 * 60 * 1000000000

/-- Whether the file with `newer` files before it goes. -/
def isDue (maxFiles maxAgeDays : Nat) (now : Int) (newer : Nat) (f : LogFile) : Bool :=
  (decide (0 < maxFiles) && decide (maxFiles ≤ newer)) ||
    (decide (0 < maxAgeDays) && decide (((maxAgeDays * dayNanos : Nat) : Int) < now - f.modified))

/-- The files that go, the newest first. -/
def due (maxFiles maxAgeDays : Nat) (now : Int) (files : List LogFile) : List LogFile :=
  ((newestFirst files).zipIdx.filter fun p => isDue maxFiles maxAgeDays now p.2 p.1).map (·.1)

/-- A pruning that is over: the disk as it was left, the number of deleted files, and what was written about it. -/
structure Pruning where
  disk : Disk
  deleted : Nat
  notes : List String

/-- Deletes files one by one. -/
def deleteAll (directory : String) : List LogFile → Pruning → Pruning
  | [], p => p
  | f :: rest, p =>
    match p.disk.remove (join directory f.name) with
    | .ok d => deleteAll directory rest { p with disk := d, deleted := p.deleted + 1 }
    | .error e =>
      let note := "Failed to delete log file " ++ Text.Quoted.ofString (join directory f.name) ++ ": " ++ e.text
      deleteAll directory rest { p with notes := p.notes ++ [note] }

/-- Prunes the log files of the settings. -/
def prune (s : LoggingSettings) (now : Int) (d : Disk) : Pruning :=
  if s.maxFiles = 0 ∧ s.maxAgeDays = 0 then ⟨d, 0, []⟩
  else if !d.contains s.directory then ⟨d, 0, []⟩
  else
    match d.list s.directory with
    | .error f => ⟨d, 0, ["Failed to read log directory: " ++ f.text]⟩
    | .ok es =>
      let files := es.filterMap (LogFile.ofEntry? s.filePrefix)
      let p := deleteAll s.directory (due s.maxFiles.toNat s.maxAgeDays.toNat now files) ⟨d, 0, []⟩
      if 0 < p.deleted then
        { p with notes := p.notes ++ ["Cleaned up " ++ toString p.deleted ++ " old log file(s)"] }
      else p

end AppLauncher.Logs
