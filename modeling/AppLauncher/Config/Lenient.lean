import AppLauncher.Config.Layer
import AppLauncher.Config.Strict
import AppLauncher.Word

/-!
# Reading a configuration leniently

A merged tree is read with scalars turned into what a field asks for.  Messages name the key and the file of the
value at fault.
-/

namespace AppLauncher.Config.Lenient

open AppLauncher.Decimal AppLauncher.Document AppLauncher.Schema AppLauncher.Config.Layer

/-- What was found where something else was expected. -/
inductive Found
  | flag (b : Bool)
  | integer (n : Int)
  | unsigned (n : Nat)
  | double (d : Double)
  | text (s : String)
  | nothing
  | list
  | table

/-- Why a tree is no configuration.  A key is added step by step on the way out of the tree. -/
inductive ReadError
  | wrongType (found : Found) (expected : String) (key : String) (origin : Option String)
  | wrongRecord (found : Value) (typeName : String)
  | unknownName (choice name : String)
  | noChoice (choice : String)

/-- What a message calls a value. -/
def Found.describe : Found → String
  | flag b => "boolean `" ++ (if b then "true" else "false") ++ "`"
  | integer n => "64-bit integer `" ++ toString n ++ "`"
  | unsigned n => "64-bit unsigned integer `" ++ toString n ++ "`"
  | double d => "floating point `" ++ d.plain ++ "`"
  | text s => "string " ++ Text.Quoted.ofString s
  | nothing => "unit value"
  | list => "sequence"
  | table => "map"

namespace ReadError

/-- Whether the error is about the type of a value at a key. -/
def isTypeError : ReadError → Bool
  | wrongType .. => true
  | _ => false

/-- The text of an error. -/
def message : ReadError → String
  | wrongType found expected key origin =>
    "invalid type: " ++ found.describe ++ ", expected " ++ expected ++
      (if key = "" then "" else " for key `" ++ key ++ "`") ++
      (match origin with
        | some o => " in " ++ o
        | none => "")
  | wrongRecord found typeName => "invalid type: " ++ Strict.describe .toml found ++ ", expected struct " ++ typeName
  | unknownName choice name => "enum " ++ choice ++ " does not have variant constructor " ++ name
  | noChoice choice =>
    "value of enum " ++ choice ++ " should be represented by either string or table with exactly one key"

/-- The error seen from the table that holds the value under a name. -/
def under (name : String) : ReadError → ReadError
  | wrongType found expected key origin =>
    let rest := if key = "" then "" else if key.startsWith "[" then key else "." ++ key
    wrongType found expected (name ++ rest) origin
  | e => e

/-- The error seen from the list that holds the value at a position. -/
def atIndex (i : Nat) : ReadError → ReadError
  | wrongType found expected key origin =>
    let rest := if key = "" then "" else if key.startsWith "[" then key else "." ++ key
    wrongType found expected ("[" ++ toString i ++ "]" ++ rest) origin
  | e => e

end ReadError

/-- What a scalar is called where another type was expected. -/
def found : Scalar → Found
  | .nil => .nothing
  | .flag b => .flag b
  | .integer n => .integer n
  | .double d => .double d
  | .text s => .text s

/-- The error of a node whose type does not fit. -/
def mismatch (n : Node) (expected : String) : ReadError :=
  let what := match n with
    | .scalar _ v => found v
    | .list .. => .list
    | .table .. => .table
  .wrongType what expected "" n.origin

/-- The truth that a word spells in lower case. -/
def truth? (word : String) : Option Bool :=
  if word = "true" ∨ word = "on" ∨ word = "yes" then some true
  else if word = "false" ∨ word = "off" ∨ word = "no" then some false
  else none

/-- A truth value.  A text at fault is shown in lower case. -/
def readFlag : Node → Except ReadError Bool
  | .scalar o v => match v with
    | .flag b => .ok b
    | .integer n => .ok (n != 0)
    | .double d => .ok !d.isZero
    | .text s =>
      let word := Text.lowerString s
      if word = "1" then .ok true
      else if word = "0" then .ok false
      else match truth? word with
        | some b => .ok b
        | none => .error (.wrongType (.text word) "a boolean" "" o)
    | .nil => .error (.wrongType .nothing "a boolean" "" o)
  | n => .error (mismatch n "a boolean")

/-- An unsigned number of 64 bits. -/
def readUnsigned : Node → Except ReadError Nat
  | .scalar o v => match v with
    | .flag b => .ok (if b then 1 else 0)
    | .integer n =>
      if 0 ≤ n then .ok n.toNat
      else .error (.wrongType (.integer n) "an unsigned 64 bit or less integer" "" o)
    | .double d => .ok (d.toBoundedNat (wordCount 64))
    | .text s =>
      match truth? (Text.lowerString s) with
      | some b => .ok (if b then 1 else 0)
      | none =>
        match Text.unsigned? (wordCount 64) s.toList with
        | some n => .ok n
        | none => .error (.wrongType (.text s) "an integer" "" o)
    | .nil => .error (.wrongType .nothing "an integer" "" o)
  | n => .error (mismatch n "an integer")

/-- An unsigned number of so many bits. -/
def readWord (bits : Nat) (n : Node) : Except ReadError Nat := do
  let k ← readUnsigned n
  if k < wordCount bits then pure k
  else .error (.wrongType (.unsigned k) ("an unsigned " ++ toString bits ++ " bit integer") "" none)

/-- A text; other scalars are written out. -/
def readText : Node → Except ReadError String
  | .scalar o v => match v with
    | .flag b => .ok (if b then "true" else "false")
    | .integer n => .ok (toString n)
    | .double d => .ok d.plain
    | .text s => .ok s
    | .nil => .error (.wrongType .nothing "a string" "" o)
  | n => .error (mismatch n "a string")

/-- A choice: its name in any case, or a table with such a name as its only key. -/
def readChoice {α : Type} (choice : String) (names : List (String × α)) (n : Node) : Except ReadError α :=
  let named (name : String) : Except ReadError α :=
    match names.lookup (Text.lowerString name) with
    | some a => .ok a
    | none => .error (.unknownName choice name)
  match n with
  | .scalar _ (.text s) => named s
  | .table _ [(k, _)] => named k
  | _ => .error (.noChoice choice)

/-- What a field of a kind holds. -/
def readKind : (k : Kind) → Node → Except ReadError k.Carrier
  | .text, n => readText n
  | .path, n => readText n
  | .flag, n => readFlag n
  | .word16, n => (readWord 16 n).map (·.toUInt16)
  | .word32, n => (readWord 32 n).map (·.toUInt32)
  | .word64, n => (readWord 64 n).map (·.toUInt64)
  | .action, n => readChoice "FailureAction" FailureAction.names n
  | .strategy, n => readChoice "ReadinessStrategy" ReadinessStrategy.names n

/-- A slot whose errors name it. -/
def named {R : Type} (s : Slot Node ReadError R) : Slot Node ReadError R :=
  ⟨s.name, fun v r => (s.store v r).mapError (ReadError.under s.name)⟩

/-- Slots whose errors name their positions. -/
def numbered {R : Type} (i : Nat) : List (Slot Node ReadError R) → List (Slot Node ReadError R)
  | [] => []
  | s :: rest => ⟨s.name, fun v r => (s.store v r).mapError (ReadError.atIndex i)⟩ :: numbered (i + 1) rest

/-- A scalar as a value of a document. -/
def scalarValue : Scalar → Value
  | .nil => .null
  | .flag b => .flag b
  | .integer n => .integer n
  | .double d => .double d
  | .text s => .text s

/-- A record: a table with its fields by name, or a list with its fields in order. -/
def readRecord {R : Type} (typeName : String) (slots : List (Slot Node ReadError R)) (base : R) :
    Node → Except ReadError R
  | .table _ entries => readEntries (slots.map named) entries base
  | .list _ items => readItems (numbered 0 slots) items base
  | .scalar _ v => .error (.wrongRecord (scalarValue v) typeName)

/-- The settings of a section. -/
def readSection (s : Section) : Node → Except ReadError s.Settings :=
  readRecord s.typeName (s.fields.map (Field.slot readKind)) s.fallback

/-- The configuration that a tree holds. -/
def read : Node → Except ReadError Config :=
  readRecord "Config" (Section.all.map (Section.slot readSection)) {}

end AppLauncher.Config.Lenient
