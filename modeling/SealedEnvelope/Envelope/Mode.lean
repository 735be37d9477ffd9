import SealedEnvelope.Text.Basic

/-!
# Modes

How an envelope protects its payload.
-/

namespace SealedEnvelope

inductive EnvelopeMode
  | plain
  | signed
  | encrypted
  /-- Signed first, and the signed envelope encrypted. -/
  | signedEncrypted
  deriving DecidableEq

namespace EnvelopeMode

def all : List EnvelopeMode := [plain, signed, encrypted, signedEncrypted]

def text : EnvelopeMode → Text
  | plain => "plain"
  | signed => "signed"
  | encrypted => "encrypted"
  | signedEncrypted => "signed-encrypted"

def ofText? (t : Text) : Option EnvelopeMode := all.find? fun m => m.text = t

end EnvelopeMode
end SealedEnvelope
