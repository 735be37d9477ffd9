import SealedEnvelope.Bytes
import SealedEnvelope.Text.Basic

/-!
# Hexadecimal

Two lower case digits for a byte. Reading takes upper case digits as well.
-/

namespace SealedEnvelope

namespace Hex

def encode (b : Bytes) : Text :=
  b.flatMap fun c => [Text.hexDigit (c.toNat / 16), Text.hexDigit (c.toNat % 16)]

def pairsOnto : List Nat → Bytes → Option Bytes
  | [], done => some done.reverse
  | [_], _ => none
  | high :: low :: rest, done => pairsOnto rest (UInt8.ofNat (high * 16 + low) :: done)

def decode? (t : Text) : Option Bytes :=
  match t.mapM Text.hexDigit? with
  | none => none
  | some digits => pairsOnto digits []

end Hex
end SealedEnvelope
