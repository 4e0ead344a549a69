import AppLauncher.Config.Schema
import AppLauncher.Text.Digits
import AppLauncher.Word

/-!
# The configuration as TOML

Sections and fields in their order, a header before each section and a blank line between sections.  A string is
written in the plainest style that can hold it.
-/

namespace AppLauncher.Config.Render

open AppLauncher.Schema

/-- The styles of a string. -/
inductive Style
  | basic
  | literal
  | multiBasic
  | multiLiteral
  deriving DecidableEq, Repr

/-- The length of the longest run of `q`, the first run being `n` longer than what is left of it. -/
def runFrom (q : Char) : Nat → List Char → Nat
  | n, [] => n
  | n, c :: rest => if c = q then max (n + 1) (runFrom q (n + 1) rest) else max n (runFrom q 0 rest)

/-- The length of the longest run of a character. -/
def longestRun (q : Char) (cs : List Char) : Nat := runFrom q 0 cs

/-- A control character that no literal string can hold. -/
def isControl (c : Char) : Bool := (c < ' ' && c != '\t' && c != '\n') || c == '\x7f'

/-- The style that a text is written in. -/
def styleOf (cs : List Char) : Style :=
  let single := longestRun '\'' cs
  let double := longestRun '"' cs
  let lines := cs.contains '\n'
  let backslash := cs.contains '\\'
  let control := cs.any isControl
  if !control && !backslash && double == 0 && !lines then .basic
  else if !control && single == 0 && !lines then .literal
  else if !control && !backslash && double ≤ 2 then .multiBasic
  else if !control && single ≤ 2 then .multiLiteral
  else if lines then .multiBasic
  else .basic

/-- The escape of a character that has one in every basic string. -/
def escape? (c : Char) : Option (List Char) :=
  if c = '\x08' then some ['\\', 'b']
  else if c = '\t' then some ['\\', 't']
  else if c = '\x0c' then some ['\\', 'f']
  else if c = '\r' then some ['\\', 'r']
  else if c = '\\' then some ['\\', '\\']
  else if isControl c then
    some ['\\', 'u', '0', '0', Text.upperHexChar (c.toNat / 16), Text.upperHexChar (c.toNat % 16)]
  else none

/-- One character of a basic string of one line. -/
def basicChar (c : Char) : List Char :=
  if c = '"' then ['\\', '"'] else if c = '\n' then ['\\', 'n'] else (escape? c).getD [c]

/-- The characters of a basic string of several lines after `n` bare quotes: of a run of quotes every third one is
escaped. -/
def multiChars : Nat → List Char → List Char
  | _, [] => []
  | n, c :: rest =>
    if c = '"' then if n = 2 then '\\' :: '"' :: multiChars 0 rest else '"' :: multiChars (n + 1) rest
    else (escape? c).getD [c] ++ multiChars 0 rest

/-- A text as a string. -/
def stringText (cs : List Char) : List Char :=
  let opening := if cs.contains '\n' then ['\n'] else []
  match styleOf cs with
  | .basic => '"' :: cs.flatMap basicChar ++ ['"']
  | .literal => '\'' :: cs ++ ['\'']
  | .multiBasic => ['"', '"', '"'] ++ opening ++ multiChars 0 cs ++ ['"', '"', '"']
  | .multiLiteral => ['\'', '\'', '\''] ++ opening ++ cs ++ ['\'', '\'', '\'']

/-- Why a configuration cannot be written. -/
inductive RenderError
  | numberTooLarge
  deriving DecidableEq, Repr

/-- The text of an error. -/
def RenderError.message : RenderError → String
  | numberTooLarge => "out-of-range value for u64 type"

/-- What the caller reports when writing failed. -/
def failureContext : String := "Failed to serialize configuration"

/-- A whole number, which the format limits to 63 bits. -/
def numberText (n : Nat) : Except RenderError (List Char) :=
  if n < wordCount 63 then .ok (Text.decimal n) else .error .numberTooLarge

/-- What a field of a kind holds. -/
def kindText : (k : Kind) → k.Carrier → Except RenderError (List Char)
  | .text, s => .ok (stringText s.toList)
  | .path, s => .ok (stringText s.toList)
  | .flag, b => .ok (if b then "true".toList else "false".toList)
  | .word16, n => numberText n.toNat
  | .word32, n => numberText n.toNat
  | .word64, n => numberText n.toNat
  | .action, a => .ok (stringText a.name.toList)
  | .strategy, s => .ok (stringText s.name.toList)

/-- The line of a field. -/
def fieldText {S : Type} (s : S) (f : Schema.Field S) : Except RenderError (List Char) :=
  (kindText f.kind (f.get s)).map fun v => f.name.toList ++ " = ".toList ++ v ++ ['\n']

/-- The lines of some fields. -/
def fieldsText {S : Type} (s : S) : List (Schema.Field S) → Except RenderError (List Char)
  | [] => .ok []
  | f :: rest => do
    let line ← fieldText s f
    let lines ← fieldsText s rest
    pure (line ++ lines)

/-- A section with its header. -/
def sectionText (c : Config) (s : Section) : Except RenderError (List Char) :=
  (fieldsText (s.get c) s.fields).map fun lines => '[' :: s.name.toList ++ [']', '\n'] ++ lines

/-- Sections with blank lines between them. -/
def sectionsText (c : Config) : List Section → Except RenderError (List Char)
  | [] => .ok []
  | [s] => sectionText c s
  | s :: rest => do
    let first ← sectionText c s
    let others ← sectionsText c rest
    pure (first ++ '\n' :: others)

end AppLauncher.Config.Render

namespace AppLauncher

/-- The configuration as TOML. -/
def Config.toToml (c : Config) : Except Config.Render.RenderError String :=
  (Config.Render.sectionsText c Schema.Section.all).map String.ofList

end AppLauncher
