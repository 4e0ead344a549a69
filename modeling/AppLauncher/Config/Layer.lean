import AppLauncher.Document.Value
import AppLauncher.Text.Digits
import AppLauncher.Text.Lowercase
import AppLauncher.Word

/-!
# Layers of configuration

Documents are laid one over the other: each key of a later document is set in the tree that the earlier ones made.
A key of the top level may be a path with dots and indices.  A table is merged entry by entry and anything else
replaces what was there.  Names are compared in lower case.  A value remembers the file it came from; a table that
merging makes comes from no file.
-/

namespace AppLauncher.Config.Layer

open AppLauncher.Decimal AppLauncher.Document

/-- A value that has no parts. -/
inductive Scalar
  | nil
  | flag (b : Bool)
  | integer (n : Int)
  | double (d : Double)
  | text (s : String)
  deriving Repr

/-- A tree of values with their origins. -/
inductive Node
  | scalar (origin : Option String) (value : Scalar)
  | list (origin : Option String) (items : List Node)
  | table (origin : Option String) (entries : List (String × Node))
  deriving Repr

namespace Node

/-- No value. -/
def nil : Node := scalar none .nil

/-- A table without entries. -/
def emptyTable : Node := table none []

/-- Where the node came from. -/
def origin : Node → Option String
  | scalar o _ => o
  | list o _ => o
  | table o _ => o

/-- The node itself if it is a table, else an empty table. -/
def asTable : Node → Node
  | table o es => table o es
  | _ => emptyTable

/-- The node itself if it is a list, else an empty list. -/
def asList : Node → Node
  | list o items => list o items
  | _ => list none []

/-- The entries of a table. -/
def entries : Node → List (String × Node)
  | table _ es => es
  | _ => []

/-- The table with an entry replaced or added; any other node becomes such a table. -/
def setKey (target : Node) (key : String) (value : Node) : Node :=
  match target.asTable with
  | table o es => table o (setEntry key value es)
  | n => n

mutual

/-- Sets a name in a node: a table is merged into what the name holds, anything else replaces it. -/
def put (target : Node) (key : String) : Node → Node
  | table _ es =>
    let child := (target.asTable.entries.lookup key).getD emptyTable
    target.setKey key (putAll child es)
  | list o items => target.setKey key (list o items)
  | scalar o v => target.setKey key (scalar o v)

/-- Sets all entries in a node, their names in lower case. -/
def putAll (child : Node) : List (String × Node) → Node
  | [] => child
  | (k, v) :: rest => putAll (put child (Text.lowerString k) v) rest

end

/-- A position counted from the start, or from the end when it is negative. -/
def position (i : Int) (length : Nat) : Nat :=
  if 0 ≤ i then i.toNat else length - i.natAbs

/-- The list with the item at a position changed; missing items before it hold nothing. -/
def changeItem (i : Int) (change : Node → Node) (target : Node) : Node :=
  match target.asList with
  | list o items =>
    let k := position i items.length
    let items := items ++ List.replicate (k + 1 - items.length) nil
    list o (items.modify k change)
  | n => n

/-- The table with the entry of a name changed; a missing one holds nothing. -/
def changeKey (key : String) (change : Node → Node) (target : Node) : Node :=
  target.setKey key (change ((target.asTable.entries.lookup key).getD nil))

end Node

mutual

/-- The tree of a document from a file. -/
def ofValue (origin : String) : Value → Node
  | .null => .scalar (some origin) .nil
  | .flag b => .scalar (some origin) (.flag b)
  | .integer n => .scalar (some origin) (.integer n)
  | .double d => .scalar (some origin) (.double d)
  | .text s => .scalar (some origin) (.text s)
  | .moment m => .scalar (some origin) (.text m.text)
  | .list items => .list (some origin) (ofItems origin items)
  | .table es => .table (some origin) (ofEntries origin es)

/-- The trees of the items of a list. -/
def ofItems (origin : String) : List Value → List Node
  | [] => []
  | v :: rest => ofValue origin v :: ofItems origin rest

/-- The trees of the entries of a table. -/
def ofEntries (origin : String) : List (String × Value) → List (String × Node)
  | [] => []
  | (k, v) :: rest => (k, ofValue origin v) :: ofEntries origin rest

end

/-! ### Paths -/

/-- A step of a path. -/
inductive Step
  | name (key : String)
  | index (i : Int)
  deriving DecidableEq, Repr

/-- A character of a name in a path. -/
def isNameChar (c : Char) : Bool :=
  ('a' ≤ c && c ≤ 'z') || ('A' ≤ c && c ≤ 'Z') || ('0' ≤ c && c ≤ '9') || c == '_' || c == '-' || c == ' '

/-- The name at the start. -/
def name? (cs : List Char) : Option (String × List Char) :=
  let found := cs.takeWhile isNameChar
  if found.isEmpty then none else some (Text.lowerString (String.ofList found), cs.dropWhile isNameChar)

private def skipGap (cs : List Char) : List Char := cs.dropWhile fun c => c == ' ' || c == '\t'

/-- The index at the start, a whole number of 64 bits, with its closing bracket. -/
def index? (cs : List Char) : Option (Int × List Char) := do
  let (negative, rest) := match skipGap cs with
    | '-' :: rest => (true, rest)
    | rest => (false, rest)
  let n ← Text.natOf? (rest.takeWhile Text.isDigit)
  if (if negative then n ≤ wordCount 63 else n < wordCount 63) then
    match skipGap (rest.dropWhile Text.isDigit) with
    | ']' :: rest => pure (if negative then -(n : Int) else n, rest)
    | _ => none
  else none

private def stepsLoop : Nat → List Char → List Step → Option (List Step)
  | _, [], done => some done.reverse
  | 0, _ :: _, _ => none
  | n + 1, '.' :: rest, done => do
    let (key, rest) ← name? rest
    stepsLoop n rest (.name key :: done)
  | n + 1, '[' :: rest, done => do
    let (i, rest) ← index? rest
    stepsLoop n rest (.index i :: done)
  | _ + 1, _ :: _, _ => none

/-- The path that a key spells: a name, then names after dots and indices in brackets. -/
def path? (cs : List Char) : Option (String × List Step) := do
  let (first, rest) ← name? cs
  pure (first, ← stepsLoop rest.length rest [])

/-- Changes what lies below the steps that are left.  Along names nodes become tables, along indices lists, and at
the end of a path of names a value is merged as `put` says. -/
def setAt (value : Node) : List Step → Node → Node
  | [], _ => value
  | [.name key], n => n.put key value
  | [.index i], n => n.changeItem i fun _ => value
  | .name key :: rest, n => n.changeKey key (setAt value rest)
  | .index i :: rest, n => n.changeItem i (setAt value rest)

/-- Sets a key of the top level.  A key that is no path is one name. -/
def setKeyPath (key : String) (value : Node) (root : Node) : Node :=
  match path? key.toList with
  | some (first, steps) => setAt value (.name first :: steps) root
  | none => root.put (Text.lowerString key) value

/-- Lays the entries of a document over a tree. -/
def overlay (root : Node) (entries : List (String × Node)) : Node :=
  entries.foldl (fun n (k, v) => setKeyPath k v n) root

/-- The tree of some documents, each with its origin, laid one over the other. -/
def merge (layers : List (String × Value)) : Node :=
  layers.foldl (fun root (origin, v) =>
    match v with
    | .table es => overlay root (ofEntries origin es)
    | _ => root) Node.emptyTable

end AppLauncher.Config.Layer
