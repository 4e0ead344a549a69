import AppLauncher.Text.Digits

/-!
# Durations

A span of time in seconds and nanoseconds, and its text: the largest unit that gives a whole part, with as many
decimals as are needed.
-/

namespace AppLauncher

/-- A span of time. -/
structure Duration where
  seconds : Nat
  nanos : Nat := 0
  deriving DecidableEq, Repr

namespace Duration

/-- Nanoseconds beyond a second are carried over. -/
def normalize (seconds nanos : Nat) : Duration := ⟨seconds + nanos / 1000000000, nanos % 1000000000⟩

/-- A span of whole seconds. -/
def ofSeconds (n : Nat) : Duration := ⟨n, 0⟩

/-- A span of whole milliseconds. -/
def ofMillis (n : Nat) : Duration := ⟨n / 1000, n % 1000 * 1000000⟩

/-- The span in nanoseconds. -/
def toNanos (d : Duration) : Nat := d.seconds * 1000000000 + d.nanos

/-- The span in milliseconds, a started one counted as whole. -/
def toMillisCeil (d : Duration) : Nat := (d.toNanos + 999999) / 1000000

/-- `whole` units and `part` of the `10 ^ places` parts of one, without trailing zeros. -/
private def amount (whole part places : Nat) : List Char :=
  let decimals := ((Text.padded places part).reverse.dropWhile (· == '0')).reverse
  Text.decimal whole ++ if part = 0 then [] else '.' :: decimals

/-- The text of a span. -/
def text (d : Duration) : String :=
  if d.seconds > 0 then String.ofList (amount d.seconds d.nanos 9) ++ "s"
  else if d.nanos ≥ 1000000 then String.ofList (amount (d.nanos / 1000000) (d.nanos % 1000000) 6) ++ "ms"
  else if d.nanos ≥ 1000 then String.ofList (amount (d.nanos / 1000) (d.nanos % 1000) 3) ++ "\u00b5s"
  else String.ofList (amount d.nanos 0 0) ++ "ns"

end Duration

end AppLauncher
