/-!
UTF-8. A byte sequence is read as characters and broken runs: at each place the longest prefix of a
well-formed character is taken, and where that prefix is no whole character it is one broken run.
Strict reading refuses broken runs, lenient reading puts U+FFFD for each of them.
-/

namespace ChangeGate.Text.Utf8

/-- The bounds of the bytes that must follow a lead byte, or `none` where the byte cannot lead. The
narrower bounds after `E0`, `ED`, `F0` and `F4` exclude overlong forms, surrogates and values above
U+10FFFF. -/
def following (lead : Nat) : Option (List (Nat × Nat)) :=
  let tail := (0x80, 0xBF)
  if lead < 0x80 then some []
  else if lead < 0xC2 then none
  else if lead < 0xE0 then some [tail]
  else if lead = 0xE0 then some [(0xA0, 0xBF), tail]
  else if lead = 0xED then some [(0x80, 0x9F), tail]
  else if lead < 0xF0 then some [tail, tail]
  else if lead = 0xF0 then some [(0x90, 0xBF), tail, tail]
  else if lead < 0xF4 then some [tail, tail, tail]
  else if lead = 0xF4 then some [(0x80, 0x8F), tail, tail]
  else none

/-- The payload bits of a lead byte that `count` bytes follow. -/
def leadBits (lead count : Nat) : Nat :=
  match count with
  | 0 => lead
  | 1 => lead % 32
  | 2 => lead % 16
  | _ => lead % 8

/-- Takes bytes within the bounds, as far as they go. Answers the code point if all were found, and
the rest of the bytes in either case. -/
def take : List (Nat × Nat) → Nat → List UInt8 → Option Nat × List UInt8
  | [], point, rest => (some point, rest)
  | _ :: _, _, [] => (none, [])
  | (low, high) :: bounds, point, byte :: rest =>
    if low ≤ byte.toNat ∧ byte.toNat ≤ high then
      take bounds (point * 64 + byte.toNat % 64) rest
    else (none, byte :: rest)

theorem length_take_le (bounds : List (Nat × Nat)) (point : Nat) (bytes : List UInt8) :
    (take bounds point bytes).2.length ≤ bytes.length := by
  induction bounds generalizing point bytes with
  | nil => simp [take]
  | cons bound bounds ih =>
    cases bytes with
    | nil => simp [take]
    | cons byte rest =>
      simp only [take]
      split
      · exact Nat.le_succ_of_le (ih _ _)
      · simp

/-- The characters of a byte sequence, with `none` for each broken run. -/
def decode : List UInt8 → List (Option Char)
  | [] => []
  | lead :: rest =>
    match following lead.toNat with
    | none => none :: decode rest
    | some bounds =>
      let found := take bounds (leadBits lead.toNat bounds.length) rest
      found.1.map Char.ofNat :: decode found.2
termination_by bytes => bytes.length
decreasing_by
  · simp
  · have := length_take_le bounds (leadBits lead.toNat bounds.length) rest
    simp only [List.length_cons]
    omega

/-- The characters of a byte sequence, or `none` if a run is broken. -/
def strict? (bytes : List UInt8) : Option (List Char) :=
  (decode bytes).mapM id

/-- The characters of a byte sequence, with U+FFFD for each broken run. -/
def lenient (bytes : List UInt8) : List Char :=
  (decode bytes).map (·.getD '\uFFFD')

def encode (text : List Char) : List UInt8 :=
  text.flatMap String.utf8EncodeChar

end ChangeGate.Text.Utf8
