/-!
# Log lines

What the launcher reports while it works.
-/

namespace AppLauncher.Log

/-- How much a line matters. -/
inductive Level
  | debug
  | info
  | warn
  | error
  deriving DecidableEq, Repr

namespace Level

/-- The level as a line shows it. -/
def text : Level → String
  | debug => "DEBUG"
  | info => "INFO"
  | warn => "WARN"
  | error => "ERROR"

/-- The rank of a level. -/
def rank : Level → Nat
  | debug => 0
  | info => 1
  | warn => 2
  | error => 3

end Level

/-- A line: its level and its text. -/
structure Line where
  level : Level
  text : String
  deriving DecidableEq, Repr

/-- A line as it is shown. -/
def Line.shown (l : Line) : String := l.level.text ++ " " ++ l.text

/-- A line of that level. -/
def debug (s : String) : Line := ⟨.debug, s⟩
/-- A line of that level. -/
def info (s : String) : Line := ⟨.info, s⟩
/-- A line of that level. -/
def warn (s : String) : Line := ⟨.warn, s⟩
/-- A line of that level. -/
def error (s : String) : Line := ⟨.error, s⟩

/-! ### Which lines are shown -/

/-- Lines are shown from a level on, or not at all. -/
structure Filter where
  least : Option Level
  deriving DecidableEq, Repr

namespace Filter

/-- The filter that is used where none is asked for. -/
def default : Filter := ⟨some .info⟩

/-- The names of the filters. -/
def names : List (String × Filter) := [
  ("off", ⟨none⟩), ("error", ⟨some .error⟩), ("warn", ⟨some .warn⟩), ("info", ⟨some .info⟩),
  ("debug", ⟨some .debug⟩), ("trace", ⟨some .debug⟩)]

/-- The filter of that name, in capital or small letters; any other text asks for none. -/
def ofText (s : String) : Filter := (names.lookup (String.ofList (s.toList.map Char.toLower))).getD default

/-- Whether a line is shown. -/
def shows (f : Filter) (l : Line) : Bool := f.least.any fun least => decide (least.rank ≤ l.level.rank)

end Filter

end AppLauncher.Log
