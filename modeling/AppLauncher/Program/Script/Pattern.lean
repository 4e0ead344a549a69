/-!
# Patterns of scripts

A pattern matches a whole text.  A character of a pattern that was quoted stands for itself; of the others a star
stands for any text, a question mark for one character, and brackets for one of a class.
-/

namespace AppLauncher.Program.Script

/-- A character and whether it was quoted. -/
abbrev Marked := Char × Bool

namespace Pattern

/-- Whether a character is in a class, and the pattern after the class; `none` if the class has no end. -/
def inClass (c : Char) : Bool → List Marked → Option (Bool × List Marked)
  | _, [] => none
  | started, (']', false) :: rest =>
    if started then some (false, rest)
    else (inClass c true rest).map fun p => (p.1 || c == ']', p.2)
  | _, (a, _) :: ('-', false) :: (b, q) :: rest =>
    if b = ']' ∧ !q then
      (inClass c true ((b, q) :: rest)).map fun p => (p.1 || c == a || c == '-', p.2)
    else (inClass c true rest).map fun p => (p.1 || (a ≤ c && c ≤ b), p.2)
  | _, (a, _) :: rest => (inClass c true rest).map fun p => (p.1 || c == a, p.2)
termination_by _ p => p.length

/-- Whether a pattern matches a text.  The number bounds the steps; the lengths of both added are enough. -/
def matchesFrom : Nat → List Marked → List Char → Bool
  | 0, p, s => p.isEmpty && s.isEmpty
  | _ + 1, [], s => s.isEmpty
  | n + 1, ('*', false) :: p, s =>
    matchesFrom n p s ||
      match s with
      | [] => false
      | _ :: rest => matchesFrom n (('*', false) :: p) rest
  | n + 1, ('?', false) :: p, s =>
    match s with
    | [] => false
    | _ :: rest => matchesFrom n p rest
  | n + 1, ('[', false) :: p, s =>
    let negated := match p with
      | ('!', false) :: _ => true
      | _ => false
    let body := if negated then p.drop 1 else p
    match s with
    | [] => false
    | c :: rest =>
      match inClass c false body with
      | some (found, after) => (found != negated) && matchesFrom n after rest
      | none => c == '[' && matchesFrom n p rest
  | n + 1, (a, _) :: p, s =>
    match s with
    | [] => false
    | c :: rest => a == c && matchesFrom n p rest

/-- Whether a pattern matches a text. -/
def matchesAll (p : List Marked) (s : List Char) : Bool := matchesFrom (p.length + s.length + 1) p s

end Pattern

end AppLauncher.Program.Script
