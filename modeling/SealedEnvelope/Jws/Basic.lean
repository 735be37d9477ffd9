import SealedEnvelope.Codec.Base64url
import SealedEnvelope.Json.Printer
import SealedEnvelope.Json.Schema
import SealedEnvelope.Key.Type

/-!
# Signed envelopes

A JSON web signature holds a payload and at least one signature, each with a header of its own. The
payload, the headers and the signatures are in base64url. A signature covers the encoded header and
the encoded payload with a dot between them.
-/

namespace SealedEnvelope

/-- The header that a signature covers. -/
structure JwsHeader where
  typ : Text
  alg : SignatureAlgorithm
  kid : Option Text
  deriving DecidableEq

structure JwsSignature where
  /-- The encoded header. -/
  protectedHeader : Text
  /-- The encoded signature. -/
  signature : Text
  /-- The id of the signing key. The signature does not cover it. -/
  kid : Text
  deriving DecidableEq

structure Jws where
  /-- The encoded payload. -/
  payload : Text
  signatures : List JwsSignature
  deriving DecidableEq

namespace JwsHeader

def toJson (h : JwsHeader) : Json :=
  .ofOptional [("typ", some (.str h.typ)), ("alg", some (.str h.alg.text)),
    ("kid", h.kid.map .str)]

def encode (h : JwsHeader) : Text := Base64url.encodeText h.toJson.text

open Schema in
def schema : Schema JwsHeader := object fun members => do
  let typ ← field members "typ" text
  let alg ← field members "alg" (choice SignatureAlgorithm.ofText?)
  let kid ← field members "kid" (optional text)
  return ⟨typ, alg, kid⟩

/-- The header of a JSON value. -/
def ofJson? (v : Json) : Option JwsHeader := (schema (some v)).toOption

/-- The header that an encoded one stands for. -/
def decode? (encoded : Text) : Option JwsHeader := do
  let b ← Base64url.decode? encoded
  let v ← Json.parse? (Utf8.decodeLenient b)
  ofJson? v

end JwsHeader

namespace JwsSignature

def toJson (s : JwsSignature) : Json :=
  .obj [("protected", .str s.protectedHeader), ("signature", .str s.signature),
    ("header", .obj [("kid", .str s.kid)])]

open Schema in
def schema : Schema JwsSignature := object fun members => do
  let protectedHeader ← field members "protected" text
  let signature ← field members "signature" text
  let kid ← field members "header" (object fun members => field members "kid" nonEmptyText)
  return ⟨protectedHeader, signature, kid⟩

end JwsSignature

namespace Jws

def toJson (j : Jws) : Json :=
  .obj [("payload", .str j.payload), ("signatures", .arr (j.signatures.map JwsSignature.toJson))]

/-- The envelope as one text. -/
def serialized (j : Jws) : Text := j.toJson.text

open Schema in
def schema : Schema Jws := object fun members => do
  let payload ← field members "payload" text
  let signatures ← field members "signatures" (nonEmptyList JwsSignature.schema)
  return ⟨payload, signatures⟩

/-- The envelope in an untrusted value, which may be missing. -/
def ofJson (v : Option Json) : Except Error Jws := schema.read v .serializationError "JWS"

/-- The dot between an encoded header and an encoded payload. -/
def dot : CodeUnit := 0x2E

/-- What a signature covers. -/
def signingInput (protectedHeader payload : Text) : Bytes :=
  Text.utf8 (protectedHeader ++ dot :: payload)

end Jws
end SealedEnvelope
