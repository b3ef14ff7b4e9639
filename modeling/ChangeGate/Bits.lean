/-!
How many values bits have.
-/

namespace ChangeGate.Bits

/-- The number of values of so many bits. -/
def values (bits : Nat) : Nat := Nat.pow 2 bits

end ChangeGate.Bits
