import SealedEnvelope.Error
import SealedEnvelope.Text.Utf8

/-!
# Base64url

Three bytes are four digits of six bits, without padding at the end. Reading accepts the texts over the
alphabet whose length leaves no lone digit; the bits of the last digit that belong to no byte are
ignored, so up to sixteen texts stand for one byte string.
-/

namespace SealedEnvelope

namespace Base64url

/-- The digit for a value below 64. -/
def digit (n : Nat) : CodeUnit :=
  UInt16.ofNat
    (if n < 26 then 0x41 + n
    else if n < 52 then 0x61 + (n - 26)
    else if n < 62 then 0x30 + (n - 52)
    else if n = 62 then 0x2D
    else 0x5F)

def value? (u : CodeUnit) : Option Nat :=
  if 0x41 ≤ u ∧ u ≤ 0x5A then some (u.toNat - 0x41)
  else if 0x61 ≤ u ∧ u ≤ 0x7A then some (u.toNat - 0x61 + 26)
  else if 0x30 ≤ u ∧ u ≤ 0x39 then some (u.toNat - 0x30 + 52)
  else if u = 0x2D then some 62
  else if u = 0x5F then some 63
  else none

def encodeOnto : Bytes → Text → Text
  | [], out => out.reverse
  | [a], out => (digit (a.toNat % 4 * 16) :: digit (a.toNat / 4) :: out).reverse
  | [a, b], out =>
    (digit (b.toNat % 16 * 4) :: digit (a.toNat % 4 * 16 + b.toNat / 16) :: digit (a.toNat / 4)
      :: out).reverse
  | a :: b :: c :: rest, out =>
    encodeOnto rest
      (digit (c.toNat % 64) :: digit (b.toNat % 16 * 4 + c.toNat / 64)
        :: digit (a.toNat % 4 * 16 + b.toNat / 16) :: digit (a.toNat / 4) :: out)

def encode (b : Bytes) : Text := encodeOnto b []

/-- The bytes of digit values. A lone digit at the end has none. -/
def decodeOnto : List Nat → Bytes → Bytes
  | a :: b :: c :: d :: rest, out =>
    decodeOnto rest
      (UInt8.ofNat (c % 4 * 64 + d) :: UInt8.ofNat (b % 16 * 16 + c / 4)
        :: UInt8.ofNat (a * 4 + b / 16) :: out)
  | [a, b, c], out =>
    (UInt8.ofNat (b % 16 * 16 + c / 4) :: UInt8.ofNat (a * 4 + b / 16) :: out).reverse
  | [a, b], out => (UInt8.ofNat (a * 4 + b / 16) :: out).reverse
  | [_], out => out.reverse
  | [], out => out.reverse

def decode? (t : Text) : Option Bytes :=
  match t.mapM value? with
  | none => none
  | some values => if t.length % 4 = 1 then none else some (decodeOnto values [])

def decode (t : Text) : Except Error Bytes :=
  match decode? t with
  | some b => .ok b
  | none => .error .notBase64url

def encodeText (t : Text) : Text := encode t.utf8

/-- The text whose UTF-8 the value holds, malformed places replaced. -/
def decodeText (t : Text) : Except Error Text :=
  match decode? t with
  | some b => .ok (Utf8.decodeLenient b)
  | none => .error .notBase64url

end Base64url
end SealedEnvelope
