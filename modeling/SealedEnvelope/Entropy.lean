import SealedEnvelope.Hash.Sha256

/-!
# Entropy

Randomness is an endless byte stream that the caller provides. An operation that needs random bytes
takes the stream's beginning, so its result is a function of the stream.
-/

namespace SealedEnvelope

abbrev Entropy := Nat → UInt8

namespace Entropy

/-- The first `count` bytes. -/
def first (e : Entropy) (count : Nat) : Bytes := (List.range count).map e

/-- The stream behind its first `count` bytes. -/
def after (e : Entropy) (count : Nat) : Entropy := fun i => e (count + i)

/-- A stream that repeats for a repeated seed: the digests of the seed with a counter behind it. -/
def ofSeed (seed : Bytes) : Entropy := fun i =>
  (Sha256.hash (seed ++ Bytes.word32 (i / 32))).getD (i % 32) 0

@[simp] theorem length_first (e : Entropy) (count : Nat) : (e.first count).length = count := by
  simp [first]

end Entropy
end SealedEnvelope
