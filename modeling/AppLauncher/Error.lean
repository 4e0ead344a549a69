import AppLauncher.Config.Basic
import AppLauncher.Duration
import AppLauncher.Fault

/-!
# Errors of the launcher

What can go wrong between the start and the moment the window shows the server, with the text of each error, and
which of them end the launcher.
-/

namespace AppLauncher

/-- Why deleting a cached file failed. -/
inductive DeleteFailure
  | notFound
  | permissionDenied
  | inUse
  | other
  deriving DecidableEq, Repr

namespace DeleteFailure

/-- The reasons in order. -/
def all : List DeleteFailure := [notFound, permissionDenied, inUse, other]

/-- The name that a reason is written with. -/
def name : DeleteFailure → String
  | notFound => "not_found"
  | permissionDenied => "permission_denied"
  | inUse => "in_use"
  | other => "other"

/-- The names with their reasons. -/
def names : List (String × DeleteFailure) := all.map fun k => (k.name, k)

/-- What a message calls a reason. -/
def label : DeleteFailure → String
  | notFound => "not found"
  | permissionDenied => "permission denied"
  | inUse => "in use"
  | other => "other"

/-- The reason that a fault gives. -/
def classify (f : Fault) : DeleteFailure :=
  match f.kind with
  | .notFound => notFound
  | .permissionDenied => permissionDenied
  | .resourceBusy => inUse
  | _ => other

end DeleteFailure

/-- What the settings say about a reason. -/
def CacheSettings.actionFor (s : CacheSettings) : DeleteFailure → FailureAction
  | .notFound => s.onNotFound
  | .permissionDenied => s.onPermissionDenied
  | .inUse => s.onInUse
  | .other => s.onOther

/-- An error of the launcher. -/
inductive LauncherError
  | cacheList (path : String) (source : Fault)
  | cacheDelete (path : String) (kind : DeleteFailure) (source : Fault)
  | spawn (program : String) (source : Fault)
  | readinessTimeout (after : Duration)
  | serverExitedEarly (outcome : String)
  | window (reason : String)
  | windowCreate (reason : String)
  | taskFailed (reason : String)
  | notStarted
  deriving DecidableEq, Repr

namespace LauncherError

/-- The text of an error. -/
def message : LauncherError → String
  | cacheList path source => "Failed to list cache directory " ++ path ++ ": " ++ source.text
  | cacheDelete path kind source =>
    "Failed to delete cached file " ++ path ++ " (" ++ kind.label ++ "): " ++ source.text
  | spawn program source => "Failed to spawn server process " ++ program ++ ": " ++ source.text
  | readinessTimeout after => "Server was not ready within " ++ after.text
  | serverExitedEarly outcome => "Server process exited before becoming ready (" ++ outcome ++ ")"
  | window reason => "Window error: " ++ reason
  | windowCreate reason => "Failed to create window: " ++ reason
  | taskFailed reason => "Background task failed: " ++ reason
  | notStarted => "Launcher has not been started"

/-- The fault behind an error. -/
def source? : LauncherError → Option Fault
  | cacheList _ f => some f
  | cacheDelete _ _ f => some f
  | spawn _ f => some f
  | _ => none

/-- Whether the launcher ends with the error instead of leaving the window up. -/
def isFatal : LauncherError → Bool
  | cacheList .. => true
  | cacheDelete .. => true
  | spawn .. => true
  | windowCreate _ => true
  | taskFailed _ => true
  | readinessTimeout _ => false
  | serverExitedEarly _ => false
  | window _ => false
  | notStarted => false

end LauncherError

end AppLauncher
