import SealedEnvelope.Key.Jwk
import SealedEnvelope.Json.Printer

/-!
# Encrypted envelopes

A JSON web encryption holds one sealed content and, for each recipient, the content key wrapped for
that recipient. The header belongs to the content: it names the ephemeral key that all recipients agree
with, and the content's tag covers it as it is encoded.
-/

namespace SealedEnvelope

/-- The decoded header. The two algorithms in it are always the same. -/
structure JweHeader where
  /-- The ephemeral public key. -/
  epk : EcJwk
  /-- The encoded digest of the recipients' ids. -/
  apv : Text
  /-- The sender's encoded id, if the sender is named. -/
  apu : Option Text
  typ : Text
  /-- The media type of the content if it is an envelope itself. -/
  cty : Option Text
  deriving DecidableEq

structure JweRecipient where
  /-- The encoded content key, wrapped for this recipient. -/
  encryptedKey : Text
  kid : Text
  /-- The sender's id. Anyone can name any sender. -/
  senderKid : Option Text
  deriving DecidableEq

structure Jwe where
  /-- The encoded header. -/
  protectedHeader : Text
  recipients : List JweRecipient
  iv : Text
  ciphertext : Text
  tag : Text
  deriving DecidableEq

namespace JweHeader

/-- How the content key is wrapped. -/
def keyManagement : Text := "ECDH-ES+A256KW"

/-- How the content is encrypted. -/
def contentEncryption : Text := "A256GCM"

def toJson (h : JweHeader) : Json :=
  .ofOptional [("epk", some h.epk.toJson), ("apv", some (.str h.apv)), ("apu", h.apu.map .str),
    ("typ", some (.str h.typ)), ("cty", h.cty.map .str), ("enc", some (.str contentEncryption)),
    ("alg", some (.str keyManagement))]

def encode (h : JweHeader) : Text := Base64url.encodeText h.toJson.text

open Schema in
def schema : Schema JweHeader := object fun members => do
  let epk ← field members "epk" EcJwk.schema
  let apv ← field members "apv" text
  let apu ← field members "apu" (optional text)
  let typ ← field members "typ" text
  let cty ← field members "cty" (optional text)
  field members "enc" (literal contentEncryption)
  field members "alg" (literal keyManagement)
  return ⟨epk, apv, apu, typ, cty⟩

/-- The header that an encoded one stands for. Errors have the given code. -/
def decode (encoded : Text) (code : ErrorCode) : Except Error JweHeader :=
  match Base64url.decode? encoded with
  | none => .error (.headerNotBase64url code)
  | some b => do
    let v ← Json.parse (Utf8.decodeLenient b) code "JWE protected header"
    schema.read (some v) code "JWE protected header"

end JweHeader

namespace JweRecipient

def toJson (r : JweRecipient) : Json :=
  .obj [("encrypted_key", .str r.encryptedKey),
    ("header", .ofOptional [("kid", some (.str r.kid)), ("sender_kid", r.senderKid.map .str)])]

open Schema in
def schema : Schema JweRecipient := object fun members => do
  let encryptedKey ← field members "encrypted_key" text
  let (kid, senderKid) ← field members "header" (object fun members => do
    let kid ← field members "kid" nonEmptyText
    let senderKid ← field members "sender_kid" (optional text)
    return (kid, senderKid))
  return ⟨encryptedKey, kid, senderKid⟩

end JweRecipient

namespace Jwe

def toJson (j : Jwe) : Json :=
  .obj [("protected", .str j.protectedHeader),
    ("recipients", .arr (j.recipients.map JweRecipient.toJson)), ("iv", .str j.iv),
    ("ciphertext", .str j.ciphertext), ("tag", .str j.tag)]

/-- The envelope as one text. -/
def serialized (j : Jwe) : Text := j.toJson.text

open Schema in
def schema : Schema Jwe := object fun members => do
  let protectedHeader ← field members "protected" text
  let recipients ← field members "recipients" (nonEmptyList JweRecipient.schema)
  let iv ← field members "iv" text
  let ciphertext ← field members "ciphertext" text
  let tag ← field members "tag" text
  return ⟨protectedHeader, recipients, iv, ciphertext, tag⟩

/-- The envelope in an untrusted value, which may be missing. -/
def ofJson (v : Option Json) : Except Error Jwe := schema.read v .serializationError "JWE"

/-- The first entry for a key id. -/
def entry? (j : Jwe) (kid : Text) : Option JweRecipient := j.recipients.find? fun r => r.kid = kid

end Jwe
end SealedEnvelope
