import AppLauncher.Config.Basic

/-!
# The schema of the configuration

The sections and their fields in the order of their declaration, each field with its name, the kind of what it
holds, and how to get and set it.  Readers and printers go through the schema, so they agree on names, order and
kinds.
-/

namespace AppLauncher.Schema

/-- What a field holds. -/
inductive Kind
  | text
  | path
  | flag
  | word16
  | word32
  | word64
  | action
  | strategy
  deriving DecidableEq, Repr

/-- The type of what a field of that kind holds. -/
abbrev Kind.Carrier : Kind → Type
  | text => String
  | path => String
  | flag => Bool
  | word16 => UInt16
  | word32 => UInt32
  | word64 => UInt64
  | action => FailureAction
  | strategy => ReadinessStrategy

/-- A field of the settings `S`. -/
structure Field (S : Type) where
  name : String
  kind : Kind
  get : S → kind.Carrier
  set : kind.Carrier → S → S

/-- The sections. -/
inductive Section
  | cache
  | server
  | window
  | readiness
  | client
  | logging
  deriving DecidableEq, Repr

namespace Section

/-- The sections in order. -/
def all : List Section := [cache, server, window, readiness, client, logging]

/-- The name of a section. -/
def name : Section → String
  | cache => "cache"
  | server => "server"
  | window => "window"
  | readiness => "readiness"
  | client => "client"
  | logging => "logging"

/-- What a message calls the settings of a section. -/
def typeName : Section → String
  | cache => "CacheConfig"
  | server => "ServerConfig"
  | window => "WindowConfig"
  | readiness => "ReadinessConfig"
  | client => "ClientConfig"
  | logging => "LoggingConfig"

/-- The settings of a section. -/
abbrev Settings : Section → Type
  | cache => CacheSettings
  | server => ServerSettings
  | window => WindowSettings
  | readiness => ReadinessSettings
  | client => ClientSettings
  | logging => LoggingSettings

/-- The settings with every field at its default. -/
def default : (s : Section) → s.Settings
  | cache => {}
  | server => {}
  | window => {}
  | readiness => {}
  | client => {}
  | logging => {}

/-- The settings that a section is read over: every field at the default that it has by itself, apart from the
defaults of a section that is left out as a whole. -/
def fallback : (s : Section) → s.Settings
  | cache =>
    { directory := "./static/images", clearOnStart := true, onNotFound := .skip, onPermissionDenied := .abort
      onInUse := .abort, onOther := .abort }
  | server =>
    { interpreter := "./interpreters/Python-3.11.1/python", script := "app.py", host := "127.0.0.1", port := 5000 }
  | window => { title := "CalcDesk", width := 800, height := 600 }
  | readiness =>
    { strategy := .port, delayMillis := 1000, pollIntervalMillis := 100, timeoutSeconds := 30
      readyLine := "Running on" }
  | client => { enabled := true }
  | logging =>
    { enabled := true, directory := "logs", filePrefix := "calcdesk", rotation := "daily", maxFiles := 30
      maxAgeDays := 90 }

/-- A section of the configuration. -/
def get : (s : Section) → Config → s.Settings
  | cache, c => c.cache
  | server, c => c.server
  | window, c => c.window
  | readiness, c => c.readiness
  | client, c => c.client
  | logging, c => c.logging

/-- The configuration with one section replaced. -/
def set : (s : Section) → s.Settings → Config → Config
  | cache, v, c => { c with cache := v }
  | server, v, c => { c with server := v }
  | window, v, c => { c with window := v }
  | readiness, v, c => { c with readiness := v }
  | client, v, c => { c with client := v }
  | logging, v, c => { c with logging := v }

/-- The fields of a section in order. -/
def fields : (s : Section) → List (Field s.Settings)
  | cache => [
    ⟨"directory", .path, (·.directory), fun v s => { s with directory := v }⟩,
    ⟨"clear_on_start", .flag, (·.clearOnStart), fun v s => { s with clearOnStart := v }⟩,
    ⟨"on_not_found", .action, (·.onNotFound), fun v s => { s with onNotFound := v }⟩,
    ⟨"on_permission_denied", .action, (·.onPermissionDenied), fun v s => { s with onPermissionDenied := v }⟩,
    ⟨"on_in_use", .action, (·.onInUse), fun v s => { s with onInUse := v }⟩,
    ⟨"on_other", .action, (·.onOther), fun v s => { s with onOther := v }⟩]
  | server => [
    ⟨"interpreter", .path, (·.interpreter), fun v s => { s with interpreter := v }⟩,
    ⟨"script", .text, (·.script), fun v s => { s with script := v }⟩,
    ⟨"host", .text, (·.host), fun v s => { s with host := v }⟩,
    ⟨"port", .word16, (·.port), fun v s => { s with port := v }⟩]
  | window => [
    ⟨"title", .text, (·.title), fun v s => { s with title := v }⟩,
    ⟨"width", .word32, (·.width), fun v s => { s with width := v }⟩,
    ⟨"height", .word32, (·.height), fun v s => { s with height := v }⟩]
  | readiness => [
    ⟨"strategy", .strategy, (·.strategy), fun v s => { s with strategy := v }⟩,
    ⟨"delay_ms", .word64, (·.delayMillis), fun v s => { s with delayMillis := v }⟩,
    ⟨"poll_interval_ms", .word64, (·.pollIntervalMillis), fun v s => { s with pollIntervalMillis := v }⟩,
    ⟨"timeout_secs", .word64, (·.timeoutSeconds), fun v s => { s with timeoutSeconds := v }⟩,
    ⟨"ready_line", .text, (·.readyLine), fun v s => { s with readyLine := v }⟩]
  | client => [
    ⟨"enabled", .flag, (·.enabled), fun v s => { s with enabled := v }⟩]
  | logging => [
    ⟨"enabled", .flag, (·.enabled), fun v s => { s with enabled := v }⟩,
    ⟨"directory", .text, (·.directory), fun v s => { s with directory := v }⟩,
    ⟨"file_prefix", .text, (·.filePrefix), fun v s => { s with filePrefix := v }⟩,
    ⟨"rotation", .text, (·.rotation), fun v s => { s with rotation := v }⟩,
    ⟨"max_files", .word32, (·.maxFiles), fun v s => { s with maxFiles := v }⟩,
    ⟨"max_age_days", .word32, (·.maxAgeDays), fun v s => { s with maxAgeDays := v }⟩]

end Section

/-! ### Records read slot by slot -/

/-- A place of a record `R` with its name, and how a value of type `V` is read into it. -/
structure Slot (V ε R : Type) where
  name : String
  store : V → R → Except ε R

/-- Entries read one after the other, those without a slot of their name passed over. -/
def readEntries {V ε R : Type} (slots : List (Slot V ε R)) : List (String × V) → R → Except ε R
  | [], r => .ok r
  | (k, v) :: rest, r =>
    match slots.find? fun s => s.name == k with
    | some s =>
      match s.store v r with
      | .ok r => readEntries slots rest r
      | .error e => .error e
    | none => readEntries slots rest r

/-- Items read into the slots in order; slots without an item keep what they have. -/
def readItems {V ε R : Type} : List (Slot V ε R) → List V → R → Except ε R
  | s :: slots, v :: rest, r =>
    match s.store v r with
    | .ok r => readItems slots rest r
    | .error e => .error e
  | _, _, r => .ok r

/-- The slot of a field, read by a reader that knows every kind. -/
def Field.slot {V ε S : Type} (read : (k : Kind) → V → Except ε k.Carrier) (f : Field S) : Slot V ε S :=
  ⟨f.name, fun v s => (read f.kind v).map fun x => f.set x s⟩

/-- The slot of a section, given how the settings of a section are read. -/
def Section.slot {V ε : Type} (read : (s : Section) → V → Except ε s.Settings) (s : Section) :
    Slot V ε Config :=
  ⟨s.name, fun v c => (read s v).map fun x => s.set x c⟩

end AppLauncher.Schema
