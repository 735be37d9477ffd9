import SealedEnvelope.Envelope.Wire
import SealedEnvelope.Key.Manager

/-!
# Unpacking

The text of an envelope becomes its payload, with an account of how it was protected. The caller may
ask for a mode or for a signature, and that is checked before the payload is given out. Of an encrypted
envelope each entry that names a key of the manager is tried in turn.
-/

namespace SealedEnvelope

/-- How a payload was protected. -/
structure Provenance where
  mode : EnvelopeMode
  /-- The keys whose signatures were verified. -/
  signerKids : List Text
  /-- The key that opened the envelope. -/
  recipientKid : Option Text
  /-- The sender that the entry of that key names. -/
  senderKidHint : Option Text
  deriving DecidableEq

structure Unpacked where
  payload : Json
  provenance : Provenance

structure UnpackOptions where
  requireSignature : Bool := false
  expectedMode : Option EnvelopeMode := none
  /-- The only key to open an encrypted envelope with. -/
  expectedRecipientKid : Option Text := none
  maxEnvelopeBytes : Double := Settings.initial.maxEnvelopeBytes

namespace Envelope

/-- The JSON value that bytes spell in UTF-8. -/
def decodePayload (b : Bytes) (what : Text) : Except Error Json :=
  match Utf8.decode? b with
  | none => .error (.notUtf8 what)
  | some t => Json.parse t .serializationError what

/-- The payload and the signers of a signed envelope. -/
def openSigned (j : Jws) (keys : KeyManager) : Except Error (Json × List Text) := do
  let verified ← j.verify keys.verificationKey
  return (← decodePayload verified.payload "JWS payload", verified.signerKids)

/-- The ids of the keys that may open an envelope, in the order of its entries. -/
def candidates (j : Jwe) (keys : KeyManager) (expected : Option Text) : List Text :=
  (j.recipients.map JweRecipient.kid).filter fun kid =>
    (expected.isNone || expected = some kid) && keys.canDecrypt kid

def openWith (j : Jwe) (keys : KeyManager) (kid : Text) : Except Error OpenedJwe := do
  let key ← keys.decryptionKey kid
  j.opened key.context

/-- Opens an envelope with the first key that can. If none can, the last failure is the error. -/
def openFirst (j : Jwe) (keys : KeyManager) : (failure : Error) → List Text → Except Error OpenedJwe
  | failure, [] => .error failure
  | _, kid :: rest =>
    match openWith j keys kid with
    | .ok opened => .ok opened
    | .error e => if e.hasCode .decryptionFailed then openFirst j keys e rest else .error e

/-- Whether the sender that an entry names is one of the signers, if it names one. -/
def hintMatches (hint : Option Text) (signerKids : List Text) : Bool :=
  match hint with
  | none => true
  | some kid => signerKids.contains kid

/-- The payload of a signed envelope inside an encrypted one. -/
def openNested (opened : OpenedJwe) (keys : KeyManager) : Except Error Unpacked := do
  let inner ← Jws.ofJson (some (← decodePayload opened.plaintext "nested JWS"))
  let verified ← inner.verify keys.verificationKey
  if hintMatches opened.senderKidHint verified.signerKids then
    let payload ← decodePayload verified.payload "JWS payload"
    return ⟨payload,
      ⟨.signedEncrypted, verified.signerKids, some opened.recipientKid, opened.senderKidHint⟩⟩
  else throw .senderMismatch

/-- Refuses a mode without a signature where one is required. -/
def checkUnsigned (mode : EnvelopeMode) (options : UnpackOptions) : Except Error Unit :=
  if options.requireSignature then .error (.unsigned mode.text) else .ok ()

def openEncrypted (j : Jwe) (header : JweHeader) (keys : KeyManager) (options : UnpackOptions) :
    Except Error Unpacked := do
  let opened ← openFirst j keys (.notRecipient none) (candidates j keys options.expectedRecipientKid)
  if Wire.isNested header then openNested opened keys
  else
    checkUnsigned .encrypted options
    let payload ← decodePayload opened.plaintext "JWE plaintext"
    return ⟨payload, ⟨.encrypted, [], some opened.recipientKid, opened.senderKidHint⟩⟩

/-- The payload of an envelope that has been read. -/
def openWire (w : Wire) (keys : KeyManager) (options : UnpackOptions) : Except Error Unpacked :=
  match w with
  | .plain payload => do
    checkUnsigned .plain options
    return ⟨payload, ⟨.plain, [], none, none⟩⟩
  | .signed j => do
    let (payload, signerKids) ← openSigned j keys
    return ⟨payload, ⟨.signed, signerKids, none, none⟩⟩
  | .encrypted j header => openEncrypted j header keys options

/-- Refuses a mode other than the one that is expected. -/
def checkMode (actual : EnvelopeMode) (options : UnpackOptions) : Except Error Unit :=
  match options.expectedMode with
  | none => .ok ()
  | some expected =>
    if expected = actual then .ok () else .error (.unexpectedMode expected.text actual.text)

/-- Refuses a text that takes more bytes than the limit, blanks included. -/
def checkSize (transport : Text) (options : UnpackOptions) : Except Error Unit :=
  let size := transport.utf8.length
  if options.maxEnvelopeBytes.lt (.ofNat size) then
    .error (.envelopeTooLarge size options.maxEnvelopeBytes)
  else .ok ()

/-- The payload of the envelope in a text, and how it was protected. -/
def unpack (transport : Text) (keys : KeyManager) (options : UnpackOptions) :
    Except Error Unpacked := do
  checkSize transport options
  let wire ← Wire.ofText transport.trim
  checkMode wire.mode options
  openWire wire keys options

end Envelope
end SealedEnvelope
