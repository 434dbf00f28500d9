/-!
# Variable-length integers

A natural number is cut into groups of seven bits, lowest group first, one
byte each; the top bit of a byte says that another follows. A signed number is
first folded onto the natural numbers so that numbers near zero stay short,
whatever their sign.

The writer shifts and tests, the reader adds up from the inside, and `size`
gives the number of bytes from the bit length alone. The reader accepts numbers
of 64 bits: nine groups hold 63 bits, so the tenth byte may be 0 or 1 only.
-/

namespace Wirepool

namespace Varint

/-- The number of bytes of a 64-bit number at most. -/
def maxLength : Nat := 10

/-- The number of bytes that a number takes, from its bit length. -/
def size (n : Nat) : Nat := n.log2 / 7 + 1

/-- The groups of a number, at most `more + 1` of them. -/
def groups : (more : Nat) → Nat → List UInt8
  | 0, n => [UInt8.ofNat n]
  | more + 1, n =>
    if n < 128 then [UInt8.ofNat n]
    else UInt8.ofNat (n % 128 + 128) :: groups more (n / 128)

/-- **The written form of a number.** Every group takes seven bits away, so
there are never more groups than bits. -/
def encode (n : Nat) : List UInt8 := groups n.log2 n

/-- **Why no number can be read.** -/
inductive Failure where
  /-- The input ended while another byte was announced. -/
  | truncated
  /-- The number has more than 64 bits. -/
  | overflow
  deriving DecidableEq, Repr

/-- Reads on, after `before` bytes of the number, and gives what they add up to
together with the bytes that follow. -/
def decodeFrom : (before : Nat) → List UInt8 → Except Failure (Nat × List UInt8)
  | _, [] => .error .truncated
  | before, b :: rest =>
    if before = maxLength - 1 ∧ 1 < b.toNat then .error .overflow
    else if b.toNat < 128 then .ok (b.toNat, rest)
    else
      match decodeFrom (before + 1) rest with
      | .ok (n, rest) => .ok (b.toNat % 128 + 128 * n, rest)
      | .error failure => .error failure

/-- **Reads one number** from the front of the input, and gives it with the
bytes that follow it. -/
def decode (input : List UInt8) : Except Failure (Nat × List UInt8) :=
  decodeFrom 0 input

/-- **Folds the integers onto the natural numbers**: 0, −1, 1, −2, … become
0, 1, 2, 3, … -/
def zigzag : Int → Nat
  | .ofNat n => 2 * n
  | .negSucc n => 2 * n + 1

/-- Unfolds what `zigzag` has folded. -/
def unzigzag (n : Nat) : Int :=
  if n % 2 = 0 then .ofNat (n / 2) else .negSucc (n / 2)

@[simp] theorem unzigzag_zigzag (i : Int) : unzigzag (zigzag i) = i := by
  cases i with
  | ofNat n => simp [zigzag, unzigzag]
  | negSucc n =>
    have h : (2 * n + 1) / 2 = n := by omega
    simp [zigzag, unzigzag, h, Nat.add_mod]

@[simp] theorem zigzag_unzigzag (n : Nat) : zigzag (unzigzag n) = n := by
  unfold unzigzag
  split
  · simp only [zigzag]; omega
  · simp only [zigzag]; omega

end Varint

end Wirepool
