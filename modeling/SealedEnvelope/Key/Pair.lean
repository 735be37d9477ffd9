import SealedEnvelope.Error
import SealedEnvelope.Key.Type

/-!
# Key pairs

A private key with the public key that belongs to it.
-/

namespace SealedEnvelope

structure KeyPair where
  keyType : KeyType
  /-- 32 bytes for Ed25519, and else a point in 33 bytes. -/
  publicKey : Bytes
  privateKey : Bytes
  deriving DecidableEq

namespace KeyPair

/-- The pair of a private key that is known to be one. -/
def complete (keyType : KeyType) (privateKey : Bytes) : Except Error KeyPair :=
  match keyType.publicKey? privateKey with
  | some publicKey => .ok ⟨keyType, publicKey, privateKey⟩
  | none => .error .refused

def ofPrivateKey (keyType : KeyType) (privateKey : Bytes) : Except Error KeyPair :=
  if keyType.isPrivateKey privateKey then complete keyType privateKey
  else .error (.privateKeyInvalid keyType.text privateKey.length)

def generate (keyType : KeyType) (e : Entropy) : Except Error KeyPair :=
  complete keyType (keyType.freshPrivateKey e)

end KeyPair
end SealedEnvelope
