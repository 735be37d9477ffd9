import SealedEnvelope.Did.Multikey
import SealedEnvelope.Key.Jwk

/-!
# Verification keys

The public half of a key under the id it is known by. It holds the JSON web key and the raw key, which
is always read back from the former, so that both are one point. The web key's own id is dropped: the
key has the id it was asked for.
-/

namespace SealedEnvelope

structure VerificationKey where
  keyId : Text
  /-- The key without an id. -/
  jwk : PublicJwk
  publicKey : Bytes

namespace VerificationKey

/-- The key of a web key that has been read. -/
def ofPublicJwk (keyId : Text) (jwk : PublicJwk) : Except Error VerificationKey := do
  return ⟨keyId, jwk.withKid none, ← jwk.publicKey⟩

/-- The key of an untrusted value, which may be missing. -/
def ofJwk (keyId : Text) (v : Option Json) : Except Error VerificationKey :=
  match PublicJwk.schema v with
  | .error _ => .error (.jwkMalformed keyId)
  | .ok jwk => ofPublicJwk keyId jwk

/-- The key of a raw public key. -/
def ofPublicKey (keyId : Text) (keyType : KeyType) (publicKey : Bytes) :
    Except Error VerificationKey :=
  match PublicJwk.ofPublicKey? keyType publicKey with
  | none => .error (.publicKeyInvalid keyType.text)
  | some jwk => ofPublicJwk keyId jwk

/-- The key of a multikey text, which may be missing. -/
def ofMultikey (keyId : Text) (multibase : Option Text) : Except Error VerificationKey :=
  match multibase with
  | none => .error .notMultibase
  | some t => do
    let key ← Multikey.decode t
    ofPublicKey keyId key.keyType key.publicKey

def keyType (key : VerificationKey) : KeyType := key.jwk.keyType

/-- The web key with the id of the key. -/
def publicJwk (key : VerificationKey) : PublicJwk := key.jwk.withKid (some key.keyId)

/-- Whether a signature made with an algorithm is one of the message. An algorithm of another key type
is refused. -/
def accepts (key : VerificationKey) (algorithm : SignatureAlgorithm) (message signature : Bytes) :
    Bool :=
  algorithm.keyType = key.keyType && key.keyType.verify key.publicKey signature message

/-- Like `accepts`, for an algorithm that is given by its name. -/
def acceptsNamed (key : VerificationKey) (algorithm : Text) (message signature : Bytes) : Bool :=
  match SignatureAlgorithm.ofText? algorithm with
  | some a => key.accepts a message signature
  | none => false

end VerificationKey
end SealedEnvelope
