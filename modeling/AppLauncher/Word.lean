/-!
# Words

Numbers that fit into a number of bits.
-/

namespace AppLauncher

/-- How many numbers so many bits hold: those below this number. -/
def wordCount (bits : Nat) : Nat := Nat.pow 2 bits

end AppLauncher
