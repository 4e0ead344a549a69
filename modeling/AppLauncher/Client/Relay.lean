import AppLauncher.Text.Literal

/-!
# Field relays

A relay is a function of the page that copies the values of named form fields into other fields.  Its script names
everything in quoted literals, so no name can leave its place.
-/

namespace AppLauncher.Client

/-- A relay: the function's name, and the pairs of a field and the field that its value goes to. -/
structure Relay where
  name : String
  pairs : List (String × String)
  deriving DecidableEq, Repr

namespace Relay

/-- The function's first line. -/
def header (name : List Char) : List Char :=
  "window[".toList ++ Text.Literal.encode name ++ "] = function () \x7b\n".toList

/-- The field with that name. -/
def field (name : List Char) : List Char :=
  "document.getElementsByName(".toList ++ Text.Literal.encode name ++ ")[0].value".toList

/-- The line that copies a field's value. -/
def line (source target : List Char) : List Char :=
  "    ".toList ++ field target ++ " = ".toList ++ field source ++ ";\n".toList

/-- The function's last line. -/
def footer : List Char := "\x7d;\n".toList

/-- The characters of a relay's script. -/
def chars (r : Relay) : List Char :=
  header r.name.toList ++ r.pairs.flatMap (fun p => line p.1.toList p.2.toList) ++ footer

/-- The script that defines a relay's function. -/
def script (r : Relay) : String := String.ofList r.chars

/-- The text of a graph that is saved. -/
def saveGraph : Relay := ⟨"save_graph", [("raw_text", "content")]⟩

/-- The name and the description of a graph. -/
def graph : Relay := ⟨"graph", [("filename", "filename2"), ("description", "description2")]⟩

end Relay

end AppLauncher.Client
