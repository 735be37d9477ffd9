/-!
# Byte strings

Byte strings are lists, so the list library carries the proofs about them. A number is written with
a fixed count of bytes, most significant byte first unless the name ends in `LE`.
-/

namespace SealedEnvelope

abbrev Bytes := List UInt8

namespace Bytes

/-- The number whose base-256 digits are `b`. -/
def toNat (b : Bytes) : Nat := b.foldl (fun n c => n * 256 + c.toNat) 0

/-- The last `width` base-256 digits of a number. -/
def ofNat : (width : Nat) → Nat → Bytes
  | 0, _ => []
  | width + 1, n => ofNat width (n / 256) ++ [UInt8.ofNat n]

def toNatLE (b : Bytes) : Nat := toNat b.reverse

def ofNatLE (width n : Nat) : Bytes := (ofNat width n).reverse

/-- A 32-bit length or counter. -/
def word32 (n : Nat) : Bytes := ofNat 4 n

/-- The bytes `b` behind their length. Two framed strings agree only if the strings do. -/
def framed (b : Bytes) : Bytes := word32 b.length ++ b

def xor (a b : Bytes) : Bytes := List.zipWith (· ^^^ ·) a b

/-- Splits off `count` pieces of `size` bytes; the last one may be shorter. -/
def pieces (size : Nat) : (count : Nat) → Bytes → List Bytes → List Bytes
  | 0, _, done => done.reverse
  | count + 1, b, done => pieces size count (b.drop size) (b.take size :: done)

/-- `b` cut into pieces of `size` bytes. -/
def blocks (size : Nat) (b : Bytes) : List Bytes :=
  pieces size ((b.length + (size - 1)) / size) b []

@[simp] theorem length_ofNat (width n : Nat) : (ofNat width n).length = width := by
  induction width generalizing n with
  | zero => rfl
  | succ width ih => simp [ofNat, ih]

@[simp] theorem length_word32 (n : Nat) : (word32 n).length = 4 := length_ofNat 4 n

end Bytes
end SealedEnvelope
