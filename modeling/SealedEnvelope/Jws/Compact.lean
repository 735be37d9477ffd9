import SealedEnvelope.Jws.Signing

/-!
# Compact serialization

An envelope with one signature as three texts with dots between them: header, payload and signature.
There is no place for an id outside the header, so the header has to carry it.
-/

namespace SealedEnvelope

namespace Jws

/-- The compact text of an envelope with one signature whose header names the key. -/
def compact (j : Jws) : Except Error Text :=
  match j.signatures with
  | [s] => do
    let decoded ← Base64url.decodeText s.protectedHeader
    let v ← Json.parse decoded .invalidFormat "JWS protected header"
    if (JwsHeader.ofJson? v).bind JwsHeader.kid = some s.kid then
      return s.protectedHeader ++ dot :: (j.payload ++ dot :: s.signature)
    else throw .compactKidMissing
  | _ => .error .notSingleSignature

/-- Reads a compact text. -/
def ofCompact (t : Text) : Except Error Jws :=
  match t.splitOn dot with
  | [protectedHeader, payload, signature] =>
    match JwsHeader.decode? protectedHeader with
    | none => .error .compactHeader
    | some header =>
      match header.kid with
      | none => .error .compactHeaderKid
      | some kid => .ok ⟨payload, [⟨protectedHeader, signature, kid⟩]⟩
  | _ => .error .compactParts

/-- Signs a payload with the key's id in the header. -/
def createCompact (signer : AgentKey) (payload : Bytes) : Except Error Text := do
  let j ← create signer payload none (some signer.keyId)
  j.compact

end Jws
end SealedEnvelope
