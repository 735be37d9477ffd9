import SealedEnvelope.Did.Resolver
import SealedEnvelope.Envelope.Pack
import SealedEnvelope.Envelope.Unpack
import SealedEnvelope.Key.Manager
import SealedEnvelope.Message
import SealedEnvelope.Proofs.Codec.Base64url
import SealedEnvelope.Proofs.Number.Rounding
import SealedEnvelope.Proofs.Text.Parts
import SealedEnvelope.Settings
import SealedEnvelope.Proofs.Number.Shortest
import SealedEnvelope.Proofs.Json.Numeral
import SealedEnvelope.Proofs.Json.Printing
import SealedEnvelope.Proofs.Json.Reading
import SealedEnvelope.Proofs.Json.Members
import SealedEnvelope.Proofs.Json.NormalForm
import SealedEnvelope.Proofs.Payload.Canonical
import SealedEnvelope.Proofs.Envelope.Unpacking
import SealedEnvelope.Proofs.Envelope.PlainRoundTrip
import SealedEnvelope.Proofs.Envelope.Authenticity
import SealedEnvelope.Proofs.Json.Records
import SealedEnvelope.Proofs.Jws.RoundTrip
import SealedEnvelope.Proofs.Envelope.SignedRoundTrip
import SealedEnvelope.Proofs.Bytes
import SealedEnvelope.Proofs.Cipher.Aes
import SealedEnvelope.Proofs.Cipher.Content
import SealedEnvelope.Proofs.Cipher.KeyWrap
import SealedEnvelope.Proofs.Curve.Encoding
import SealedEnvelope.Proofs.Jwe.RoundTrip
import SealedEnvelope.Proofs.Jwe.Opening
import SealedEnvelope.Proofs.Envelope.EncryptedRoundTrip
import SealedEnvelope.Proofs.Cipher.Converse
import SealedEnvelope.Proofs.Envelope.Candidates
import SealedEnvelope.Proofs.Jwe.Evidence
import SealedEnvelope.Proofs.Did.Resolution
import SealedEnvelope.Proofs.Key.Changes
import SealedEnvelope.Proofs.Envelope.Failures
import SealedEnvelope.Proofs.Envelope.Shape
import SealedEnvelope.Proofs.Json.Keys
import SealedEnvelope.Proofs.Json.Reordering
import SealedEnvelope.Proofs.Payload.Meaning
import SealedEnvelope.Proofs.Envelope.MemberOrder
import SealedEnvelope.Proofs.Jwe.Obstacles
import SealedEnvelope.Proofs.Envelope.UniformFailure
import SealedEnvelope.Proofs.Codec.Base58
import SealedEnvelope.Proofs.Did.Multikey
import SealedEnvelope.Proofs.Did.SelfCertifying
import SealedEnvelope.Proofs.Json.Scalars
import SealedEnvelope.Proofs.Envelope.ForeignEntries
import SealedEnvelope.Proofs.Envelope.Serializations
import SealedEnvelope.Proofs.Jws.Compact
import SealedEnvelope.Proofs.Cipher.ConcatKdf
import SealedEnvelope.Proofs.Jwe.WrappingKey
import SealedEnvelope.Proofs.Jwe.Detached
import SealedEnvelope.Proofs.Cipher.Acceptance
import SealedEnvelope.Proofs.Did.TypedKeys
import SealedEnvelope.Proofs.Codec.UnusedBits
import SealedEnvelope.Proofs.Curve.Primality
import SealedEnvelope.Proofs.Curve.Nonce
import SealedEnvelope.Proofs.Curve.Compression
import SealedEnvelope.Proofs.Key.OnePoint
import SealedEnvelope.Proofs.Jws.SigningInput
import SealedEnvelope.Proofs.Did.Chains
import SealedEnvelope.Proofs.Did.Documents
import SealedEnvelope.Proofs.Json.Outline
import SealedEnvelope.Proofs.Envelope.UnknownMembers
import SealedEnvelope.Proofs.Jwe.RecipientSet
import SealedEnvelope.Proofs.Codec.Spellings
import SealedEnvelope.Proofs.Envelope.Refusal
import SealedEnvelope.Proofs.Envelope.WireForms
import SealedEnvelope.Proofs.Cipher.KeyMaterial
