import AppLauncher.Decimal.Shortest
import AppLauncher.Document.Moment

/-!
# Documents

A document is a tree of values: scalars, lists and tables whose entries keep their order.
-/

namespace AppLauncher.Document

open AppLauncher.Decimal

/-- A value of a document. -/
inductive Value
  | null
  | flag (b : Bool)
  | integer (n : Int)
  | double (d : Double)
  | text (s : String)
  | moment (m : Moment)
  | list (items : List Value)
  | table (entries : List (String × Value))
  deriving Repr

/-- The entry of a table with that key. -/
def Value.entry? : Value → String → Option Value
  | table entries, key => entries.lookup key
  | _, _ => none

/-- The entries with the value of `key` replaced, or with the key at their end. -/
def setEntry {α : Type} (key : String) (value : α) : List (String × α) → List (String × α)
  | [] => [(key, value)]
  | (k, v) :: rest => if k = key then (k, value) :: rest else (k, v) :: setEntry key value rest

end AppLauncher.Document
