import SealedEnvelope.Codec.Base58
import SealedEnvelope.Codec.Hex
import SealedEnvelope.Error
import SealedEnvelope.Key.Type

/-!
# Multikeys

A public key as one text: the letter that marks base 58, then the code of the key type and the raw key
in base 58. The codes differ in their first byte, so a text is of one key type at most.
-/

namespace SealedEnvelope

/-- A raw public key with its type. -/
structure Multikey where
  keyType : KeyType
  publicKey : Bytes
  deriving DecidableEq

namespace Multikey

/-- The two bytes that stand for a key type. -/
def codec : KeyType → Bytes
  | .ed25519 => [0xED, 0x01]
  | .ec .p256 => [0x80, 0x24]
  | .ec .secp256k1 => [0xE7, 0x01]

def keyLength : KeyType → Nat
  | .ed25519 => 32
  | .ec _ => 33

/-- The letter `z`, which marks base 58. -/
def base58Mark : CodeUnit := 0x7A

/-- The text of a key, whose length is not checked. -/
def encode (key : Multikey) : Text :=
  base58Mark :: Base58.encode (codec key.keyType ++ key.publicKey)

/-- The bytes behind the mark. -/
def decodeMarked? : Text → Option Bytes
  | [] => none
  | u :: digits => if u = base58Mark then Base58.decode? digits else none

/-- The key whose code and raw key are given. -/
def ofBytes (b : Bytes) : Except Error Multikey :=
  match KeyType.all.find? fun k => (codec k).isPrefixOf b with
  | none => .error (.multikeyCodec (Hex.encode (b.take 2)))
  | some k =>
    let publicKey := b.drop 2
    if publicKey.length = keyLength k then .ok ⟨k, publicKey⟩
    else .error (.multikeyLength k.text (keyLength k))

def decode (t : Text) : Except Error Multikey :=
  match decodeMarked? t with
  | none => .error .notMultibase
  | some b => ofBytes b

end Multikey
end SealedEnvelope
