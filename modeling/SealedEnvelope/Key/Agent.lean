import SealedEnvelope.Did.DidKey
import SealedEnvelope.Key.Pair

/-!
# Agent keys

A key pair under the identity of an agent. Without a DID of its own the agent is known by its key.
-/

namespace SealedEnvelope

/-- The identity that a key is bound to, as far as it is given. -/
structure KeyIdentity where
  did : Option Text
  keyId : Option Text

structure AgentKey where
  did : Text
  keyId : Text
  pair : KeyPair
  deriving DecidableEq

/-- A public web key with its private number or seed. -/
structure PrivateJwk where
  jwk : PublicJwk
  d : Text

def PrivateJwk.toJson (key : PrivateJwk) : Json :=
  match key.jwk.toJson with
  | .obj members => .obj (members ++ [(Text.ofString "d", Json.str key.d)])
  | v => v

namespace AgentKey

/-- The key id of a DID's first key. -/
def firstKeyId (did : Text) : Text := did ++ "#key-1"

def ofPair (pair : KeyPair) (identity : KeyIdentity) : AgentKey :=
  match identity.did with
  | some did => ⟨did, identity.keyId.getD (firstKeyId did), pair⟩
  | none =>
    let did := DidKey.ofPublicKey pair.keyType pair.publicKey
    ⟨did, identity.keyId.getD (DidKey.methodId did), pair⟩

def generate (keyType : KeyType) (identity : KeyIdentity) (e : Entropy) : Except Error AgentKey := do
  return ofPair (← KeyPair.generate keyType e) identity

/-- The key of raw private key bytes. -/
def ofPrivateKey (keyType : KeyType) (privateKey : Bytes) (identity : KeyIdentity) :
    Except Error AgentKey := do
  return ofPair (← KeyPair.ofPrivateKey keyType privateKey) identity

def keyType (key : AgentKey) : KeyType := key.pair.keyType

def algorithm (key : AgentKey) : SignatureAlgorithm := key.keyType.algorithm

/-- The public web key with the id of the key. -/
def publicJwk (key : AgentKey) : Except Error PublicJwk :=
  match PublicJwk.ofPublicKey? key.keyType key.pair.publicKey with
  | some jwk => .ok (jwk.withKid (some key.keyId))
  | none => .error .refused

/-- The public half. -/
def verificationKey (key : AgentKey) : Except Error VerificationKey :=
  VerificationKey.ofPublicKey key.keyId key.keyType key.pair.publicKey

def privateJwk (key : AgentKey) : Except Error PrivateJwk := do
  return ⟨← key.publicJwk, Base64url.encode key.pair.privateKey⟩

def sign (key : AgentKey) (message : Bytes) : Except Error Bytes :=
  match key.keyType.sign? key.pair.privateKey message with
  | some signature => .ok signature
  | none => .error .refused

end AgentKey
end SealedEnvelope
