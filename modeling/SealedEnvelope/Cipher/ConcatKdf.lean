import SealedEnvelope.Error
import SealedEnvelope.Hash.Sha256
import SealedEnvelope.Text.Utf8

/-!
# Concatenation key derivation

Key material is the digests of a round counter, the shared secret and a context, one round for each 32
bytes. The context frames the algorithm and both parties with their lengths and ends with the length
asked for, so different contexts are different byte strings.
-/

namespace SealedEnvelope

namespace ConcatKdf

/-- The algorithm that keys for JWE recipients are derived for. -/
def keyAgreement : Text := "ECDH-ES+A256KW"

def context (algorithm : Text) (apu apv : Bytes) (bits : Nat) : Bytes :=
  algorithm.utf8.framed ++ apu.framed ++ apv.framed ++ Bytes.word32 bits

/-- What is hashed in a round. -/
def roundInput (round : Nat) (secret context : Bytes) : Bytes :=
  Bytes.word32 round ++ secret ++ context

/-- The digests of the rounds from `round` on, `count` of them. -/
def digests (secret context : Bytes) (count : Nat) : Bytes :=
  (List.range count).flatMap fun i => Sha256.hash (roundInput (i + 1) secret context)

/-- How many rounds make a number of bytes. -/
def roundCount (bytes : Nat) : Nat := (bytes + 31) / 32

/-- The rounds that a 32-bit counter can number. -/
def maxRounds : Nat := 4294967295

/-- `bytes` bytes of key material. -/
def material (secret apu apv : Bytes) (bytes : Nat) (algorithm : Text) : Bytes :=
  (digests secret (context algorithm apu apv (bytes * 8)) (roundCount bytes)).take bytes

/-- The bytes that a number of bits makes, if it is positive and makes whole bytes. -/
def byteCount? (bits : Double) : Option Nat :=
  match bits.toInt? with
  | some n => if 0 < n ∧ n % 8 = 0 then some (n.toNat / 8) else none
  | none => none

/-- `bits` bits of key material for a shared secret, the sender's and the recipient's identifiers. -/
def derive (secret apu apv : Bytes) (bits : Double) (algorithm : Text) :
    Except Error Bytes :=
  match byteCount? bits with
  | none => .error (.keyLengthBits bits)
  | some bytes =>
    if maxRounds < roundCount bytes then .error .refused
    else .ok (material secret apu apv bytes algorithm)

end ConcatKdf
end SealedEnvelope
