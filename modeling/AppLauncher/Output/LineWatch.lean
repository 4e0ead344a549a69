/-!
# Watching lines

A watch looks for a line that contains a pattern, in bytes that arrive in pieces.  Only a line that has ended
counts.  Of the line that has not ended yet the watch keeps no more than the bytes that could still begin a match,
so output without line ends does not pile up.
-/

namespace AppLauncher.Output

/-- The byte that ends a line. -/
def newline : UInt8 := 10

/-- Whether `p` stands somewhere in `s`. -/
def occursIn (p : List UInt8) : List UInt8 → Bool
  | [] => p.isEmpty
  | b :: s => p.isPrefixOf (b :: s) || occursIn p s

/-- Pieces that end after a newline, but for the last one if the bytes do not end with one. -/
def segments : List UInt8 → List (List UInt8)
  | [] => []
  | b :: rest =>
    if b = newline then [b] :: segments rest
    else
      match segments rest with
      | [] => [[b]]
      | s :: more => (b :: s) :: more

/-- A watch for a pattern: what it keeps of the line that has not ended, whether that line has matched already,
and whether a line that matched has ended. -/
structure LineWatch where
  pattern : List UInt8
  pending : List UInt8 := []
  lineMatched : Bool := false
  seen : Bool := false
  deriving DecidableEq, Repr

namespace LineWatch

/-- A watch that has seen nothing yet. -/
def new (pattern : List UInt8) : LineWatch := { pattern }

/-- How many bytes can still begin a match. -/
def keep (w : LineWatch) : Nat := w.pattern.length - 1

/-- The watch after one more segment of a line. -/
def feedSegment (w : LineWatch) (segment : List UInt8) : LineWatch :=
  if w.seen then w
  else
    let line := w.pending ++ segment
    let isMatch := w.lineMatched || occursIn w.pattern line
    if segment.getLast? = some newline then
      if isMatch then { w with pending := [], lineMatched := true, seen := true }
      else { w with pending := [], lineMatched := false }
    else { w with pending := line.drop (line.length - w.keep), lineMatched := isMatch }

/-- The watch after one more piece of the output. -/
def feed (w : LineWatch) (chunk : List UInt8) : LineWatch :=
  if w.seen then w else (segments chunk).foldl feedSegment w

/-- The watch after pieces of the output, one after the other. -/
def feedAll (w : LineWatch) (chunks : List (List UInt8)) : LineWatch := chunks.foldl feed w

end LineWatch

end AppLauncher.Output
