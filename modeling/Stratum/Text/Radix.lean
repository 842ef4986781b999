/-!
# Numbers in a fixed number of digits

A number in positional notation, least significant digit first, in a buffer whose length never changes.
Changing the base of a number reads it digit by digit, and each digit multiplies the buffer
and adds to it. What does not fit is carried out at the top end and lost, so a buffer is long enough if no
step carries anything out.
-/

namespace Stratum.Radix

/-- Multiplies the number in the buffer by `m` and adds `carry`. The second part is what is carried out
of the top digit. -/
def mulAdd (base m : Nat) : (carry : Nat) → (digits : List Nat) → List Nat × Nat
  | carry, [] => ([], carry)
  | carry, d :: ds =>
    let t := m * d + carry
    let rest := mulAdd base m (t / base) ds
    (t % base :: rest.1, rest.2)

/-- The number with the given digits in base `source`, most significant first, written into a buffer of
`capacity` digits in base `base`. -/
def convert (source base capacity : Nat) (digits : List Nat) : List Nat :=
  digits.foldl (fun buffer d => (mulAdd base source d buffer).1) (List.replicate capacity 0)

/-- The digits of a buffer as one writes them: most significant first and without leading zeros. -/
def significant (buffer : List Nat) : List Nat :=
  buffer.reverse.dropWhile (· == 0)

end Stratum.Radix
