import SealedEnvelope.Did.Document

/-!
# DIDs that are keys

A DID of the method `key` is the multikey of its only key, so its document follows from the DID alone.
-/

namespace SealedEnvelope

namespace DidKey

/-- What comes before the multikey. -/
def scheme : Text := "did:key:"

def ofPublicKey (keyType : KeyType) (publicKey : Bytes) : Text :=
  scheme ++ Multikey.encode ⟨keyType, publicKey⟩

/-- The multikey in a DID. -/
def multibase (did : Text) : Text := did.drop scheme.length

/-- The id of the only method: the multikey is its name once more. -/
def methodId (did : Text) : Text := DidUrl.method did (multibase did)

def isDidKey (did : Text) : Bool := did.startsWith (scheme ++ [Multikey.base58Mark])

def context : List Text :=
  ["https://www.w3.org/ns/did/v1", "https://w3id.org/security/multikey/v1"]

/-- The document of a DID. Only keys that can agree on secrets are listed for key agreement. -/
def document (did : Text) : Except Error DidDocument :=
  if isDidKey did then
    match Multikey.decode (multibase did) with
    | .error e => .error e
    | .ok key =>
      let method := methodId did
      .ok {
        context
        id := did
        methods := [⟨method, did, .multikey (some (multibase did))⟩]
        authentication := [method]
        keyAgreement := match key.keyType with
          | .ed25519 => []
          | .ec _ => [method] }
  else .error (.notDidKey did)

end DidKey
end SealedEnvelope
