import Stratum.Bytes
import Stratum.Fault

/-!
# Random bytes

Random bytes are a supply that is consumed from its start. A request that the supply cannot meet as a
whole consumes nothing and fails. A computation with random bytes says what is left of the supply, also
when it fails.
-/

namespace Stratum

/-- The random bytes to come. -/
abbrev Entropy := Bytes

/-- A computation that consumes random bytes. -/
abbrev Random (α : Type) := EStateM Fault Entropy α

namespace Random

/-- `n` random bytes. If there are fewer, fails with the given reason. -/
def draw (n : Nat) (cause : KeyFault) : Random Bytes := fun entropy =>
  let bs := entropy.take n
  if bs.length = n then .ok bs (entropy.drop n) else .error (.key cause) entropy

/-- The greatest number of bytes that one request can ask for. -/
def maxRequest : Nat := 0x7FFFFFFF

/-- `n` random bytes for a caller. -/
def bytes (n : Nat) : Random Bytes :=
  if n ≤ maxRequest then draw n .entropy else throw (.key .entropyRequest)

/-- The random bytes of a new key. -/
def key : Random Key := return FixedBytes.padded 32 (← draw 32 .generation)

/-- A random number of 32 bits. -/
def word : Random UInt32 := return UInt32.ofNat (Bytes.toNatLE (← bytes 4))

end Random

end Stratum
