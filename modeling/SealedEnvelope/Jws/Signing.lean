import SealedEnvelope.Jws.Basic
import SealedEnvelope.Key.Agent
import SealedEnvelope.MediaType

/-!
# Signing and verifying

An envelope is accepted only if every one of its signatures is. What has been verified is rebuilt from
the fields of the envelope, so nothing else in it can take its place. The first signature that does not
pass gives the error.
-/

namespace SealedEnvelope

/-- The payload of an accepted envelope and the ids of the keys that signed it. -/
structure VerifiedJws where
  payload : Bytes
  signerKids : List Text
  deriving DecidableEq

namespace Jws

/-- An envelope with one signature. The algorithm is that of the key. -/
def create (signer : AgentKey) (payload : Bytes) (typ kid : Option Text) : Except Error Jws := do
  let header : JwsHeader := ⟨typ.getD MediaType.signed, signer.algorithm, kid⟩
  let protectedHeader := header.encode
  let encoded := Base64url.encode payload
  let signature ← signer.sign (signingInput protectedHeader encoded)
  return ⟨encoded, [⟨protectedHeader, Base64url.encode signature, signer.keyId⟩]⟩

/-- The header of a signature, unless it names another key than the envelope does. -/
def header? (s : JwsSignature) : Option JwsHeader :=
  match JwsHeader.decode? s.protectedHeader with
  | none => none
  | some h => if h.kid = none ∨ h.kid = some s.kid then some h else none

/-- Verifies one signature of a payload, with the key that `lookup` gives for its id. -/
def verifySignature (payload : Text) (lookup : Text → Except Error VerificationKey)
    (s : JwsSignature) : Except Error Unit :=
  match header? s, Base64url.decode? s.signature with
  | some header, some signature =>
    match lookup s.kid with
    | .error e => .error e
    | .ok key =>
      if key.accepts header.alg (signingInput s.protectedHeader payload) signature then .ok ()
      else .error (.signatureRejected s.kid)
  | _, _ => .error (.signatureRejected s.kid)

/-- Verifies the signatures in their order. -/
def verifySignatures (payload : Text) (lookup : Text → Except Error VerificationKey) :
    List JwsSignature → Except Error Unit
  | [] => .ok ()
  | s :: rest =>
    match verifySignature payload lookup s with
    | .ok () => verifySignatures payload lookup rest
    | .error e => .error e

def verify (j : Jws) (lookup : Text → Except Error VerificationKey) : Except Error VerifiedJws :=
  if j.signatures.isEmpty then .error .noSignatures
  else
    match verifySignatures j.payload lookup j.signatures with
    | .error e => .error e
    | .ok () =>
      match Base64url.decode? j.payload with
      | some payload => .ok ⟨payload, j.signatures.map JwsSignature.kid⟩
      | none => .error .payloadNotBase64url

end Jws
end SealedEnvelope
