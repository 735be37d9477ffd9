import SealedEnvelope.Json.Basic
import SealedEnvelope.Number.Shortest

/-!
# Errors

An error is its cause. The code, the message and the details that a caller sees are functions of it,
so no two places can word one cause differently.
-/

namespace SealedEnvelope

/-- The codes, by domain: parameters, keys, security, policy. A resolver of the caller's own may report
any other code. -/
inductive ErrorCode
  | invalidParameter
  | invalidFormat
  | serializationError
  | invalidKey
  | unsupportedAlgorithm
  | keyNotFound
  | integrityCheckFailed
  | verificationFailed
  | decryptionFailed
  | policyViolation
  | other (code : Text)
  deriving DecidableEq

namespace ErrorCode

/-- The codes of this library with their names. -/
def named : List (Text × ErrorCode) :=
  [("INVALID_PARAMETER", .invalidParameter), ("INVALID_FORMAT", .invalidFormat),
    ("SERIALIZATION_ERROR", .serializationError), ("INVALID_KEY", .invalidKey),
    ("UNSUPPORTED_ALGORITHM", .unsupportedAlgorithm), ("KEY_NOT_FOUND", .keyNotFound),
    ("INTEGRITY_CHECK_FAILED", .integrityCheckFailed),
    ("VERIFICATION_FAILED", .verificationFailed), ("DECRYPTION_FAILED", .decryptionFailed),
    ("POLICY_VIOLATION", .policyViolation)]

def text : ErrorCode → Text
  | invalidParameter => "SEAL-1001"
  | invalidFormat => "SEAL-1002"
  | serializationError => "SEAL-1003"
  | invalidKey => "SEAL-2001"
  | unsupportedAlgorithm => "SEAL-2002"
  | keyNotFound => "SEAL-2003"
  | integrityCheckFailed => "SEAL-3001"
  | verificationFailed => "SEAL-3002"
  | decryptionFailed => "SEAL-3003"
  | policyViolation => "SEAL-4001"
  | other code => code

def ofText (code : Text) : ErrorCode :=
  ((named.map Prod.snd).find? fun c => c.text = code).getD (.other code)

/-- Whether a code reports a cryptographic rejection rather than a malformed call or a missing key. -/
def isSecurityFailure : ErrorCode → Bool
  | integrityCheckFailed | verificationFailed | decryptionFailed => true
  | _ => false

end ErrorCode

/-- A step from a value to a part of it: a member's key, or an item's place in decimal. -/
abbrev Path := List Text

/-- How a number fails to be an envelope size. -/
inductive SizeFault
  | notInteger
  | notPositive

/-- The setting that cannot be used. -/
inductive SettingFault
  | logLevel (allowed : List Text) (received : Text)
  | maxEnvelopeBytes (fault : SizeFault)
  | defaultKeyType (allowed : List Text) (received : Text)

/-- What went wrong. -/
inductive Error
  /-- A primitive refused a raw key or point. -/
  | refused
  /-- An error that a resolver of the caller's own reports, in its own words. -/
  | reported (code : ErrorCode) (message : Text) (details : Option (List (Text × Json)) := none)
  /-- What a resolver of the caller's own throws that is no error of this library. -/
  | foreign (message : Text)
  | keyLengthBits (bits : Double)
  | kekLength (length : Nat)
  | unwrappedLength (length : Nat)
  | wrappedLength (length : Nat)
  | wrapIntegrity
  | cekLength
  | openFailed
  | notBase64url
  | notSerializable
  | notJson (code : ErrorCode) (what : Text)
  | malformed (code : ErrorCode) (what : Text) (path : Path)
  | coordinateNotBase64url (name : Text)
  | coordinateLength (name : Text)
  | notOkpKey (kty crv : Text)
  | notEcKey (curve kty crv : Text)
  | notEdwardsPoint
  | notCurvePoint (curve : Text)
  | privateKeyInvalid (keyType : Text) (length : Nat)
  | publicKeyInvalid (keyType : Text)
  | jwkMalformed (keyId : Text)
  | notMultibase
  | multikeyLength (keyType : Text) (length : Nat)
  | multikeyCodec (hex : Text)
  | notDidKey (did : Text)
  /-- A resolver does not know an id, for a reason if there is one to give. -/
  | unresolved (id : Text) (reason : Option Text)
  | keyRegistered (id : Text)
  | keyUnknown (kid : Text)
  | keyIncapable (kid keyType capability : Text)
  | resolvedKeyUnusable (kid : Text) (cause : Text)
  | signatureRejected (kid : Text)
  | noSignatures
  | payloadNotBase64url
  | notSingleSignature
  | compactKidMissing
  | compactParts
  | compactHeader
  | compactHeaderKid
  | headerNotBase64url (code : ErrorCode)
  | recipientIncapable (kid crv : Text)
  | recipientCurves (first second : Text)
  | noRecipients
  | duplicateRecipient
  | notRecipient (kid : Option Text)
  | decryptionFailed
  | envelopeTooLarge (size : Nat) (limit : Double)
  | notEnvelope
  | notUtf8 (what : Text)
  | senderMismatch
  | unexpectedMode (expected actual : Text)
  | unsigned (mode : Text)
  | setting (fault : SettingFault) (supported : List Text)

namespace Error

/-- The code of an error. A primitive's refusal and a foreign error have none. -/
def code? : Error → Option ErrorCode
  | refused | foreign _ => none
  | reported code _ _ | notJson code _ | malformed code _ _ | headerNotBase64url code => some code
  | keyLengthBits _ | kekLength _ | unwrappedLength _ | wrappedLength _ | cekLength
  | keyRegistered _ | noRecipients | duplicateRecipient | envelopeTooLarge _ _ | setting _ _ =>
    some .invalidParameter
  | notBase64url | notDidKey _ | payloadNotBase64url | notSingleSignature | compactKidMissing =>
    some .invalidFormat
  | notSerializable | compactParts | compactHeader | compactHeaderKid | notEnvelope | notUtf8 _ =>
    some .serializationError
  | coordinateNotBase64url _ | coordinateLength _ | notOkpKey _ _ | notEcKey _ _ _
  | notEdwardsPoint | notCurvePoint _ | privateKeyInvalid _ _ | publicKeyInvalid _ | jwkMalformed _
  | notMultibase | multikeyLength _ _ | multikeyCodec _ => some .invalidKey
  | keyIncapable _ _ _ | recipientIncapable _ _ | recipientCurves _ _ => some .unsupportedAlgorithm
  | unresolved _ _ | keyUnknown _ | resolvedKeyUnusable _ _ => some .keyNotFound
  | wrapIntegrity => some .integrityCheckFailed
  | signatureRejected _ | noSignatures | senderMismatch => some .verificationFailed
  | openFailed | notRecipient _ | decryptionFailed => some .decryptionFailed
  | unexpectedMode _ _ | unsigned _ => some .policyViolation

/-- The names `'a' | 'b'` in a message about a choice. -/
def choices (names : List Text) : Text :=
  .join " | " (names.map fun n => .concat ["\x27", n, "\x27"])

def choiceFault (allowed : List Text) (received : Text) : Text :=
  .concat ["Invalid enum value. Expected ", choices allowed, ", received \x27", received, "\x27"]

def SettingFault.message : SettingFault → Text
  | .logLevel allowed received => .concat ["logLevel: ", choiceFault allowed received]
  | .maxEnvelopeBytes .notInteger => "maxEnvelopeBytes: Expected integer, received float"
  | .maxEnvelopeBytes .notPositive => "maxEnvelopeBytes: Number must be greater than 0"
  | .defaultKeyType allowed received => .concat ["defaultKeyType: ", choiceFault allowed received]

def message : Error → Text
  | refused => []
  | reported _ message _ | foreign message => message
  | keyLengthBits _ => "keyDataLenBits must be a positive multiple of 8"
  | kekLength _ => "KEK must be 32 bytes"
  | unwrappedLength _ => "Key to wrap must be at least 16 bytes and a multiple of 8 bytes"
  | wrappedLength _ => "Wrapped key must be at least 24 bytes and a multiple of 8 bytes"
  | wrapIntegrity => "Key unwrap integrity check failed"
  | cekLength => "CEK must be 32 bytes"
  | openFailed | decryptionFailed => "decryption failed"
  | notBase64url => "Value is not valid base64url"
  | notSerializable => "Payload is not serializable"
  | notJson _ what => .concat [what, " is not valid JSON"]
  | malformed _ what path =>
    if path.isEmpty then .concat ["Malformed ", what]
    else .concat ["Malformed ", what, " at ", .join "." path]
  | coordinateNotBase64url name => .concat ["JWK ", name, " is not base64url"]
  | coordinateLength name => .concat ["JWK ", name, " must be 32 bytes"]
  | notOkpKey kty crv => .concat ["Expected an Ed25519 OKP key, got ", kty, "/", crv]
  | notEcKey curve kty crv => .concat ["Expected an EC ", curve, " key, got ", kty, "/", crv]
  | notEdwardsPoint => "JWK x is not an Ed25519 point"
  | notCurvePoint curve => .concat ["JWK is not a point on ", curve]
  | privateKeyInvalid keyType _ => .concat ["Invalid ", keyType, " private key"]
  | publicKeyInvalid keyType => .concat ["Invalid ", keyType, " public key"]
  | jwkMalformed keyId => .concat ["Unsupported or malformed public JWK for ", keyId]
  | notMultibase => "Public key is not base58btc multibase"
  | multikeyLength keyType length =>
    .concat [keyType, " public key must be ", .ofNat length, " bytes"]
  | multikeyCodec hex => .concat ["Unsupported multicodec prefix: ", hex]
  | notDidKey did =>
    .concat ["Invalid DID format: expected \"did:key:z...\", got \"", did, "\""]
  | unresolved id none => .concat ["Key not found: ", id]
  | unresolved id (some reason) => .concat ["Key not found: ", id, " (", reason, ")"]
  | keyRegistered id => .concat ["Key already registered: ", id]
  | keyUnknown kid => .concat ["Key not found: ", kid]
  | keyIncapable kid keyType capability =>
    .concat [keyType, " key ", kid, " does not support ", capability]
  | resolvedKeyUnusable kid _ => .concat ["Resolved key for ", kid, " is unusable"]
  | signatureRejected _ => "Signature verification failed"
  | noSignatures => "JWS carries no signatures"
  | payloadNotBase64url => "JWS payload is not base64url"
  | notSingleSignature => "Compact serialization requires exactly one signature"
  | compactKidMissing => "Compact serialization requires the protected header to carry the kid"
  | compactParts => "Invalid compact JWS: must have three dot-separated parts"
  | compactHeader => "Invalid compact JWS: protected header is not a JWS header"
  | compactHeaderKid => "Invalid compact JWS: protected header has no kid"
  | headerNotBase64url _ => "JWE protected header is not base64url"
  | recipientIncapable kid crv =>
    .concat ["Recipient ", kid, " has a ", crv, " key, which cannot do key agreement"]
  | recipientCurves _ _ => "All recipients of one JWE must use the same curve"
  | noRecipients => "No recipients specified for JWE"
  | duplicateRecipient => "Duplicate recipient key id"
  | notRecipient _ => "not an intended recipient"
  | envelopeTooLarge size limit =>
    .concat ["Envelope of ", .ofNat size, " bytes exceeds the ", limit.text, " byte limit"]
  | notEnvelope => "Envelope is not valid JSON"
  | notUtf8 what => .concat [what, " is not UTF-8"]
  | senderMismatch => "JWE sender does not match the nested JWS signer"
  | unexpectedMode expected actual =>
    .concat ["Expected a ", expected, " envelope but got ", actual]
  | unsigned mode => .concat ["Signature required but envelope is ", mode]
  | setting fault _ => .concat ["Invalid configuration: ", SettingFault.message fault]

/-- The facts about an error that a program can read. The ones of this library never hold key material. -/
def details? : Error → Option (List (Text × Json))
  | reported _ _ details => details
  | keyLengthBits bits => some [("keyDataLenBits", .num bits)]
  | kekLength length | unwrappedLength length | wrappedLength length
  | privateKeyInvalid _ length => some [("length", .ofNat length)]
  | unresolved id _ => some [("id", .str id)]
  | keyUnknown kid | signatureRejected kid | notRecipient (some kid) => some [("kid", .str kid)]
  | keyIncapable kid keyType _ => some [("kid", .str kid), ("keyType", .str keyType)]
  | resolvedKeyUnusable kid cause => some [("kid", .str kid), ("cause", .str cause)]
  | recipientCurves first second => some [("curves", .arr [.str first, .str second])]
  | envelopeTooLarge size limit => some [("size", .ofNat size), ("limit", .num limit)]
  | unexpectedMode expected actual => some [("expected", .str expected), ("actual", .str actual)]
  | unsigned mode => some [("mode", .str mode)]
  | setting _ supported => some [("supportedKeyTypes", .arr (supported.map .str))]
  | _ => none

def hasCode (e : Error) (code : ErrorCode) : Bool := e.code? = some code

end Error
end SealedEnvelope
