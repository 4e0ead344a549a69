import AppLauncher.Config.Schema
import AppLauncher.Document.Value
import AppLauncher.Text.Quoted
import AppLauncher.Word

/-!
# Reading a configuration strictly

A document is read as it stands: no value is turned into another kind.  Missing fields keep their defaults and
unknown ones are passed over.  Two formats differ in the words of their messages, in what a list may hold beyond
the fields, and in how a choice may be written as a table.
-/

namespace AppLauncher.Config.Strict

open AppLauncher.Document AppLauncher.Schema

/-- The format that a document came from. -/
inductive Format
  | json
  | toml
  deriving DecidableEq, Repr

/-- Why a document is no configuration. -/
inductive ReadError
  | wrongType (found : Value) (expected : String)
  | wrongValue (found : Value) (expected : String)
  | unknownName (name : String) (known : List String)
  | tooManyItems (length : Nat)
  | notNameOrTable
  | entryCount (several : Bool)
  | notEmpty (what : String)
  | notTable (found : String)

/-- What a message calls a value. -/
def describe (f : Format) : Value → String
  | .null => match f with
    | .json => "null"
    | .toml => "unit value"
  | .flag b => "boolean `" ++ (if b then "true" else "false") ++ "`"
  | .integer n => "integer `" ++ toString n ++ "`"
  | .double d => match f with
    | .json => "floating point `" ++ d.compact ++ "`"
    | .toml => "floating point `" ++ d.pointed ++ "`"
  | .text s => "string " ++ Text.Quoted.ofString s
  | .list _ => "sequence"
  | .table _ => "map"
  | .moment _ => "map"

/-- A list of known names as a message shows it. -/
def nameList : List String → String
  | [a, b] => "`" ++ a ++ "` or `" ++ b ++ "`"
  | names => "one of " ++ ", ".intercalate (names.map fun n => "`" ++ n ++ "`")

/-- The text of an error. -/
def ReadError.message (f : Format) : ReadError → String
  | wrongType found expected => "invalid type: " ++ describe f found ++ ", expected " ++ expected
  | wrongValue found expected => "invalid value: " ++ describe f found ++ ", expected " ++ expected
  | unknownName name known => "unknown variant `" ++ name ++ "`, expected " ++ nameList known
  | tooManyItems n => "invalid length " ++ toString n ++ ", expected fewer elements in array"
  | notNameOrTable => "wanted string or table"
  | entryCount several =>
    "wanted exactly 1 element, " ++ if several then "more than 1 element" else "found 0 elements"
  | notEmpty what => "expected empty " ++ what
  | notTable found => "expected table, found " ++ found

/-- What the table format calls the value of a named entry. -/
private def tomlTypeName : Value → String
  | .null => "none"
  | .flag _ => "boolean"
  | .integer _ => "integer"
  | .double _ => "float"
  | .text _ => "string"
  | .moment _ => "datetime"
  | .list _ => "array"
  | .table _ => "inline table"

/-- The choice with that name. -/
def named {α : Type} (names : List (String × α)) (name : String) : Except ReadError α :=
  match names.lookup name with
  | some a => .ok a
  | none => .error (.unknownName name (names.map (·.1)))

/-- Whether the value of a named entry says nothing. -/
def saysNothing (f : Format) (v : Value) : Except ReadError Unit :=
  match f, v with
  | .json, .null => .ok ()
  | .json, v => .error (.wrongType v "unit")
  | .toml, .table [] => .ok ()
  | .toml, .table _ => .error (.notEmpty "table")
  | .toml, .list [] => .ok ()
  | .toml, .list _ => .error (.notEmpty "array")
  | .toml, v => .error (.notTable (tomlTypeName v))

/-- A choice: its name, or a table with the name as its only key. -/
def readChoice {α : Type} (f : Format) (names : List (String × α)) : Value → Except ReadError α
  | .text s => named names s
  | .table [(k, v)] => do
    let a ← named names k
    saysNothing f v
    pure a
  | .table entries => match f with
    | .json => .error (.wrongValue (.table entries) "map with a single key")
    | .toml => .error (.entryCount !entries.isEmpty)
  | v => match f with
    | .json => .error (.wrongType v "string or map")
    | .toml => .error .notNameOrTable

/-- An unsigned number below a bound. -/
def readNumber (bound : Nat) (expected : String) : Value → Except ReadError Nat
  | .integer n =>
    if 0 ≤ n ∧ n < bound then .ok n.toNat else .error (.wrongValue (.integer n) expected)
  | v => .error (.wrongType v expected)

/-- What a field of a kind holds. -/
def readKind (f : Format) : (k : Kind) → Value → Except ReadError k.Carrier
  | .text, v => match v with
    | .text s => .ok s
    | v => .error (.wrongType v "a string")
  | .path, v => match v with
    | .text s => .ok s
    | v => .error (.wrongType v "path string")
  | .flag, v => match v with
    | .flag b => .ok b
    | v => .error (.wrongType v "a boolean")
  | .word16, v => (readNumber (wordCount 16) "u16" v).map (·.toUInt16)
  | .word32, v => (readNumber (wordCount 32) "u32" v).map (·.toUInt32)
  | .word64, v => (readNumber (wordCount 64) "u64" v).map (·.toUInt64)
  | .action, v => readChoice f FailureAction.names v
  | .strategy, v => readChoice f ReadinessStrategy.names v

/-- The entries in the order in which they are read. -/
def ordered (f : Format) (entries : List (String × Value)) : List (String × Value) :=
  match f with
  | .json => entries.mergeSort fun a b => decide (a.1 ≤ b.1)
  | .toml => entries

/-- A record: a table with its fields by name, or a list with its fields in order. -/
def readRecord {R : Type} (f : Format) (typeName : String) (slots : List (Slot Value ReadError R)) (base : R) :
    Value → Except ReadError R
  | .table entries => readEntries slots (ordered f entries) base
  | .list items => do
    let r ← readItems slots items base
    if f = .json ∧ slots.length < items.length then .error (.tooManyItems items.length) else .ok r
  | .moment _ => .ok base
  | v => .error (.wrongType v ("struct " ++ typeName))

/-- The settings of a section. -/
def readSection (f : Format) (s : Section) : Value → Except ReadError s.Settings :=
  readRecord f s.typeName (s.fields.map (Field.slot (readKind f))) s.fallback

/-- The configuration that a document holds. -/
def read (f : Format) : Value → Except ReadError Config :=
  readRecord f "Config" (Section.all.map (Section.slot (readSection f))) {}

end AppLauncher.Config.Strict
