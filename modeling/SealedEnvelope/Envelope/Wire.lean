import SealedEnvelope.Envelope.Mode
import SealedEnvelope.Jwe.Basic
import SealedEnvelope.Jws.Compact

/-!
# Envelopes on the wire

What kind of envelope a text is follows from the text alone. A JSON object with signatures is signed,
one with recipients is encrypted, any other JSON value is a plain payload, and a text that is not JSON
can be a compact signed envelope. Keys are not needed for it, and no payload is looked at.
-/

namespace SealedEnvelope

/-- An envelope as it has been read. -/
inductive Wire
  | plain (payload : Json)
  | signed (jws : Jws)
  | encrypted (jwe : Jwe) (header : JweHeader)

namespace Wire

/-- Whether a header says that the content is a signed envelope. -/
def isNested (header : JweHeader) : Bool := header.cty = some MediaType.signed

def mode : Wire → EnvelopeMode
  | plain _ => .plain
  | signed _ => .signed
  | encrypted _ header => if isNested header then .signedEncrypted else .encrypted

def isCompact (t : Text) : Bool := (t.splitOn Jws.dot).length == 3

/-- The envelope that a JSON value is. -/
def ofJson (v : Json) : Except Error Wire :=
  if v.hasMember "signatures" then (Jws.ofJson (some v)).map signed
  else if v.hasMember "recipients" then do
    let j ← Jwe.ofJson (some v)
    let header ← JweHeader.decode j.protectedHeader .decryptionFailed
    return encrypted j header
  else .ok (plain v)

/-- The envelope that a text without blanks around it is. -/
def ofText (t : Text) : Except Error Wire :=
  match Json.parse? t with
  | some v => ofJson v
  | none => if isCompact t then (Jws.ofCompact t).map signed else .error .notEnvelope

end Wire
end SealedEnvelope
