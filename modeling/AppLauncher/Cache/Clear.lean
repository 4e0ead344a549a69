import AppLauncher.Error
import AppLauncher.Log
import AppLauncher.Storage.Disk

/-!
# Clearing the cache

Every entry directly in the cache's directory is deleted as a file.  The settings say for every reason of a failed
deletion whether the entry is skipped or the clearing ends.
-/

namespace AppLauncher.Cache

/-- How many entries a clearing deleted and how many it left. -/
structure Report where
  removed : Nat := 0
  skipped : Nat := 0
  deriving DecidableEq, Repr

/-- A clearing that is over: the state it left, its log, and what it reports. -/
structure Clearing (σ : Type) where
  state : σ
  log : List Log.Line
  result : Except LauncherError Report

/-- Clears entry by entry.  A listing gives the names of the entries in order, or a fault in place of one; `remove`
deletes an entry. -/
def sweep {σ : Type} (directory : String) (action : DeleteFailure → FailureAction)
    (remove : String → σ → Except Fault σ) : List (Except Fault String) → σ → Report → List Log.Line → Clearing σ
  | [], s, report, log => ⟨s, log, .ok report⟩
  | .error f :: _, s, _, log => ⟨s, log, .error (.cacheList directory f)⟩
  | .ok name :: rest, s, report, log =>
    let path := Storage.join directory name
    match remove path s with
    | .ok s =>
      sweep directory action remove rest s { report with removed := report.removed + 1 }
        (log ++ [Log.debug ("Deleted cached file " ++ path)])
    | .error f =>
      let kind := DeleteFailure.classify f
      match action kind with
      | .skip =>
        sweep directory action remove rest s { report with skipped := report.skipped + 1 }
          (log ++ [Log.warn ("Skipping cached file " ++ path ++ " (" ++ kind.label ++ "): " ++ f.text)])
      | .abort => ⟨s, log, .error (.cacheDelete path kind f)⟩

/-- The line about a clearing that came to its end. -/
def summary (directory : String) (r : Report) : Log.Line :=
  Log.info ("Cleared cache directory " ++ directory ++ " removed=" ++ toString r.removed ++ " skipped="
    ++ toString r.skipped)

/-- Clears a directory whose listing is known. -/
def clearListed {σ : Type} (settings : CacheSettings) (remove : String → σ → Except Fault σ)
    (listing : Except Fault (List (Except Fault String))) (s : σ) : Clearing σ :=
  match listing with
  | .error f => ⟨s, [], .error (.cacheList settings.directory f)⟩
  | .ok items =>
    let c := sweep settings.directory settings.actionFor remove items s {} []
    match c.result with
    | .ok r => { c with log := c.log ++ [summary settings.directory r] }
    | .error _ => c

/-- Clears the cache's directory on a disk. -/
def clear (settings : CacheSettings) (d : Storage.Disk) : Clearing Storage.Disk :=
  clearListed settings (fun path d => d.remove path)
    ((d.list settings.directory).map fun es => es.map fun e => .ok e.1) d

end AppLauncher.Cache
