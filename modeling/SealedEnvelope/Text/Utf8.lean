import SealedEnvelope.Bytes
import SealedEnvelope.Text.Basic

/-!
# UTF-8

Encoding replaces a surrogate without a partner by U+FFFD, so every text has bytes. Decoding reads
the bytes once, left to right; each longest beginning of a valid sequence that breaks off counts as
one malformed place. The lenient reading puts U+FFFD there, the strict one refuses. Both drop one byte
order mark at the beginning.
-/

namespace SealedEnvelope

namespace Text

def replacement : Nat := 0xFFFD

def isHighSurrogate (u : CodeUnit) : Bool := 0xD800 ≤ u && u < 0xDC00

def isLowSurrogate (u : CodeUnit) : Bool := 0xDC00 ≤ u && u < 0xE000

/-- The code point of a unit that has no partner. -/
def scalarOfUnit (u : CodeUnit) : Nat :=
  if isHighSurrogate u || isLowSurrogate u then replacement else u.toNat

def scalarOfPair (high low : CodeUnit) : Nat :=
  0x10000 + (high.toNat - 0xD800) * 0x400 + (low.toNat - 0xDC00)

def scalarsOnto : Text → List Nat → List Nat
  | [], done => done.reverse
  | [u], done => (scalarOfUnit u :: done).reverse
  | u :: v :: rest, done =>
    if isHighSurrogate u && isLowSurrogate v then scalarsOnto rest (scalarOfPair u v :: done)
    else scalarsOnto (v :: rest) (scalarOfUnit u :: done)

/-- The code points of a text, with U+FFFD for each surrogate that has no partner. -/
def scalars (t : Text) : List Nat := scalarsOnto t []

def ofScalars (cs : List Nat) : Text := cs.flatMap unitsOfScalar

/-- `t` with U+FFFD for each surrogate that has no partner. -/
def repaired (t : Text) : Text := ofScalars t.scalars

end Text

namespace Utf8

/-- The shortest sequence of a code point. -/
def encodeScalar (c : Nat) : Bytes :=
  if c < 0x80 then [UInt8.ofNat c]
  else if c < 0x800 then [UInt8.ofNat (0xC0 + c / 0x40), UInt8.ofNat (0x80 + c % 0x40)]
  else if c < 0x10000 then
    [UInt8.ofNat (0xE0 + c / 0x1000), UInt8.ofNat (0x80 + c / 0x40 % 0x40),
      UInt8.ofNat (0x80 + c % 0x40)]
  else
    [UInt8.ofNat (0xF0 + c / 0x40000), UInt8.ofNat (0x80 + c / 0x1000 % 0x40),
      UInt8.ofNat (0x80 + c / 0x40 % 0x40), UInt8.ofNat (0x80 + c % 0x40)]

def encode (t : Text) : Bytes := t.scalars.flatMap encodeScalar

/-- A sequence that has begun: the bytes still missing, the bounds of the next one, and the value of
the bits read. -/
structure Pending where
  missing : Nat
  low : UInt8
  high : UInt8
  value : Nat

/-- What has been read, last first (`none` is a malformed place), and the sequence under way. -/
structure Reading where
  done : List (Option Nat)
  pending : Option Pending

/-- The bounds on the second byte exclude long forms, surrogates and values above `0x10FFFF`. -/
def Reading.start (done : List (Option Nat)) (b : UInt8) : Reading :=
  if b < 0x80 then ⟨some b.toNat :: done, none⟩
  else if 0xC2 ≤ b && b ≤ 0xDF then ⟨done, some ⟨1, 0x80, 0xBF, b.toNat - 0xC0⟩⟩
  else if b == 0xE0 then ⟨done, some ⟨2, 0xA0, 0xBF, 0⟩⟩
  else if b == 0xED then ⟨done, some ⟨2, 0x80, 0x9F, 0xD⟩⟩
  else if 0xE1 ≤ b && b ≤ 0xEF then ⟨done, some ⟨2, 0x80, 0xBF, b.toNat - 0xE0⟩⟩
  else if b == 0xF0 then ⟨done, some ⟨3, 0x90, 0xBF, 0⟩⟩
  else if b == 0xF4 then ⟨done, some ⟨3, 0x80, 0x8F, 4⟩⟩
  else if 0xF1 ≤ b && b ≤ 0xF3 then ⟨done, some ⟨3, 0x80, 0xBF, b.toNat - 0xF0⟩⟩
  else ⟨none :: done, none⟩

def Reading.next (r : Reading) (b : UInt8) : Reading :=
  match r.pending with
  | none => start r.done b
  | some p =>
    if p.low ≤ b && b ≤ p.high then
      let value := p.value * 0x40 + (b.toNat - 0x80)
      if p.missing ≤ 1 then ⟨some value :: r.done, none⟩
      else ⟨r.done, some ⟨p.missing - 1, 0x80, 0xBF, value⟩⟩
    else start (none :: r.done) b

def Reading.finish (r : Reading) : List (Option Nat) :=
  (match r.pending with
    | none => r.done
    | some _ => none :: r.done).reverse

/-- The code points that `b` spells, `none` standing for a malformed place. -/
def read (b : Bytes) : List (Option Nat) := (b.foldl Reading.next ⟨[], none⟩).finish

def byteOrderMark : Nat := 0xFEFF

def dropMark : List Nat → List Nat
  | [] => []
  | c :: cs => if c = byteOrderMark then cs else c :: cs

/-- The lenient reading. -/
def decodeLenient (b : Bytes) : Text :=
  Text.ofScalars (dropMark ((read b).map fun c => c.getD Text.replacement))

/-- The strict reading: `none` for bytes that are not UTF-8. -/
def decode? (b : Bytes) : Option Text :=
  let cs := read b
  if cs.all Option.isSome then some (Text.ofScalars (dropMark (cs.filterMap id))) else none

end Utf8

namespace Text

/-- The bytes of a text in UTF-8. -/
def utf8 (t : Text) : Bytes := Utf8.encode t

end Text
end SealedEnvelope
