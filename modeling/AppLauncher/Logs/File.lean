import AppLauncher.Config.Basic
import AppLauncher.Storage.Disk
import AppLauncher.Text.Digits

/-!
# Log files

The file that the log is written to has the time of its beginning in its name: the day, the hour as well if there is
a new file every hour, or nothing if there is only one file.
-/

namespace AppLauncher.Logs

open AppLauncher.Storage

/-- A point of the calendar. -/
structure Stamp where
  year : Nat
  month : Nat
  day : Nat
  hour : Nat
  deriving DecidableEq, Repr

/-- The point of the calendar so many seconds after the first day of 1970.  Years are counted from the first of March,
so that a leap day is the last of its year. -/
def Stamp.ofSeconds (seconds : Nat) : Stamp :=
  let days := seconds / 86400 + 719468
  let dayOfEra := days % 146097
  let yearOfEra := (dayOfEra - dayOfEra / 1460 + dayOfEra / 36524 - dayOfEra / 146096) / 365
  let dayOfYear := dayOfEra - (365 * yearOfEra + yearOfEra / 4 - yearOfEra / 100)
  let month := (5 * dayOfYear + 2) / 153
  { year := days / 146097 * 400 + yearOfEra + (if month < 10 then 0 else 1)
    month := if month < 10 then month + 3 else month - 9
    day := dayOfYear - (153 * month + 2) / 5 + 1
    hour := seconds / 3600 % 24 }

/-- How often a new file begins. -/
inductive Rotation
  | never
  | daily
  | hourly
  deriving DecidableEq, Repr

/-- The rotation that the settings name; a name that is not known stands for the daily one. -/
def Rotation.ofText : String → Rotation
  | "hourly" => hourly
  | "never" => never
  | _ => daily

/-- The day of a stamp. -/
def Stamp.dayText (t : Stamp) : List Char :=
  Text.padded 4 t.year ++ '-' :: Text.padded 2 t.month ++ '-' :: Text.padded 2 t.day

/-- The text of a stamp as exact as a rotation needs it. -/
def Stamp.text (t : Stamp) : Rotation → List Char
  | .hourly => t.dayText ++ '-' :: Text.padded 2 t.hour
  | _ => t.dayText

/-- The name of the file that begins at a time.  Without a configured text the name is the time alone. -/
def fileName (start : String) (r : Rotation) (t : Stamp) : String :=
  if start = "" then String.ofList (t.text r)
  else if r = .never then start
  else start ++ "." ++ String.ofList (t.text r)

/-- The path of the file that begins at a time. -/
def filePath (s : LoggingSettings) (t : Stamp) : String :=
  join s.directory (fileName s.filePrefix (.ofText s.rotation) t)

/-- Makes sure that the file is there.  If it cannot be made at once, the directories above it are made first. -/
def openFile (path : String) (now : Int) (d : Disk) : Except Fault Disk :=
  match d.append path [] now with
  | .ok d => .ok d
  | .error f =>
    match Disk.parentPath path with
    | none => .error f
    | some parent => do
      let d ← d.makeDirectories parent
      d.append path [] now

end AppLauncher.Logs
