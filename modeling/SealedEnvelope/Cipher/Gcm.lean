import SealedEnvelope.Cipher.Aes

/-!
# Galois counter mode

The text is combined with a key stream, the encryptions of a counter behind the initialization vector.
The tag is a polynomial hash of the associated data and the ciphertext, masked with the first block of
the stream. So for given key, vector and data one tag only is accepted for a ciphertext.
-/

namespace SealedEnvelope

namespace Gcm

/-- The product of two field elements, the first bit of a block being the coefficient of one: `z` plus
the product of the `bits` bits of `x` that are left and `v`. -/
def mulOnto : (bits : Nat) → (x v z : Nat) → Nat
  | 0, _, _, z => z
  | bits + 1, x, v, z =>
    mulOnto bits x
      (if v % 2 = 0 then v / 2 else (v / 2) ^^^ 0xe1000000000000000000000000000000)
      (if x.testBit bits then z ^^^ v else z)

def mul (x y : Nat) : Nat := mulOnto 128 x y 0

/-- Horner's rule at the point `h` over the blocks of `b`. -/
def hash (h : Nat) (b : Bytes) : Nat :=
  (b.blocks 16).foldl (fun y block => mul (y ^^^ block.toNat) h) 0

/-- Zeros up to a whole number of blocks. -/
def padded (b : Bytes) : Bytes := b ++ List.replicate ((16 - b.length % 16) % 16) 0

def counterBlock (iv : Bytes) (counter : Nat) : Bytes := iv ++ Bytes.word32 counter

/-- `text` combined with the key stream. Doing it twice gives the text back. -/
def crypt (c : BlockCipher) (iv text : Bytes) : Bytes :=
  let stream := (List.range ((text.length + 15) / 16)).flatMap fun i =>
    c.encrypt (counterBlock iv (i + 2))
  Bytes.xor text stream

def tag (c : BlockCipher) (iv aad ciphertext : Bytes) : Bytes :=
  let h := (c.encrypt (List.replicate 16 0)).toNat
  let sizes := Bytes.ofNat 8 (aad.length * 8) ++ Bytes.ofNat 8 (ciphertext.length * 8)
  Bytes.xor (Bytes.ofNat 16 (hash h (padded aad ++ padded ciphertext ++ sizes)))
    (c.encrypt (counterBlock iv 1))

/-- Ciphertext and tag. -/
def encrypt (c : BlockCipher) (iv aad plaintext : Bytes) : Bytes × Bytes :=
  let ciphertext := crypt c iv plaintext
  (ciphertext, tag c iv aad ciphertext)

/-- The plaintext, if the tag is the right one. -/
def decrypt? (c : BlockCipher) (iv aad ciphertext given : Bytes) : Option Bytes :=
  if tag c iv aad ciphertext = given then some (crypt c iv ciphertext) else none

end Gcm
end SealedEnvelope
