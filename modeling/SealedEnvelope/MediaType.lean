import SealedEnvelope.Text.Basic

/-!
# Media types

What an envelope says that it is, or that it holds.
-/

namespace SealedEnvelope

namespace MediaType

/-- A message without protection. -/
def plain : Text := "application/didcomm-plain+json"

def signed : Text := "application/didcomm-signed+json"

def encrypted : Text := "application/didcomm-encrypted+json"

end MediaType
end SealedEnvelope
