import SealedEnvelope.Hash.Sha256

/-!
# HMAC with SHA-256

The key, filled up to a block, frames the message twice under two different masks.
-/

namespace SealedEnvelope

namespace Hmac

def blockKey (key : Bytes) : Bytes :=
  let k := if 64 < key.length then Sha256.hash key else key
  k ++ List.replicate (64 - k.length) 0

def sha256 (key message : Bytes) : Bytes :=
  let k := blockKey key
  Sha256.hash (k.map (· ^^^ 0x5C) ++ Sha256.hash (k.map (· ^^^ 0x36) ++ message))

end Hmac
end SealedEnvelope
