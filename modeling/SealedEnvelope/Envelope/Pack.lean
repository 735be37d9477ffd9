import SealedEnvelope.Envelope.Mode
import SealedEnvelope.Jws.Compact
import SealedEnvelope.Key.Manager
import SealedEnvelope.Payload.Canonical

/-!
# Packing

A payload becomes the text of an envelope. What is signed or encrypted is always the payload's
canonical text, so payloads that differ only in the order of members have one envelope.
-/

namespace SealedEnvelope

/-- How a payload is to be protected, and by which keys. -/
inductive Protection
  | plain
  | signed (signingKeyId : Text) (compact : Bool)
  | encrypted (senderKeyId : Option Text) (recipients : List VerificationKey)
  | signedEncrypted (signingKeyId : Text) (recipients : List VerificationKey)

namespace Protection

def mode : Protection → EnvelopeMode
  | plain => .plain
  | signed _ _ => .signed
  | encrypted _ _ => .encrypted
  | signedEncrypted _ _ => .signedEncrypted

end Protection

namespace Envelope

/-- The text of a signed envelope. -/
def packSigned (signer : AgentKey) (compact : Bool) (payload : Bytes) : Except Error Text :=
  if compact then Jws.createCompact signer payload
  else do
    let j ← Jws.create signer payload none none
    return j.serialized

/-- The text of an encrypted envelope, with or without a sender that is named. -/
def packEncrypted (sender : Option AgreementKey) (recipients : List VerificationKey)
    (payload : Bytes) (e : Entropy) : Except Error Text := do
  let j ← match sender with
    | some key => key.createJwe payload recipients none e
    | none => Jwe.create payload recipients {} e
  return j.serialized

/-- The text of an encrypted envelope that holds a signed one. The signer is the sender. -/
def packSignedEncrypted (signer : AgentKey) (recipients : List VerificationKey) (payload : Bytes)
    (e : Entropy) : Except Error Text := do
  let inner ← Jws.create signer payload none none
  let options : JweOptions := { senderKid := some signer.keyId, cty := some MediaType.signed }
  let j ← Jwe.create inner.serialized.utf8 recipients options e
  return j.serialized

/-- The text of an envelope for a payload. -/
def pack (payload : Payload) (protection : Protection) (keys : KeyManager) (e : Entropy) :
    Except Error Text :=
  match protection with
  | .plain => payload.canonicalText
  | .signed signingKeyId compact => do
    let signer ← keys.signingKey signingKeyId
    packSigned signer compact (← payload.canonicalBytes)
  | .encrypted senderKeyId recipients => do
    let plaintext ← payload.canonicalBytes
    match senderKeyId with
    | some kid => packEncrypted (some (← keys.encryptionKey kid)) recipients plaintext e
    | none => packEncrypted none recipients plaintext e
  | .signedEncrypted signingKeyId recipients => do
    let signer ← keys.signingKey signingKeyId
    packSignedEncrypted signer recipients (← payload.canonicalBytes) e

end Envelope
end SealedEnvelope
