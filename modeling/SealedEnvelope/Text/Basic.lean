/-!
# Text

A text is a list of UTF-16 code units. Surrogates need not come in pairs: envelopes carry such texts
as key ids and payload strings, and order, length and equality are those of the units.
-/

namespace SealedEnvelope

abbrev CodeUnit := UInt16

abbrev Text := List CodeUnit

namespace Text

/-- The one or two units of a code point below `0x110000`. -/
def unitsOfScalar (c : Nat) : Text :=
  if c < 0x10000 then [UInt16.ofNat c]
  else [UInt16.ofNat (0xD800 + (c - 0x10000) / 0x400), UInt16.ofNat (0xDC00 + (c - 0x10000) % 0x400)]

def ofString (s : String) : Text := s.toList.flatMap fun c => unitsOfScalar c.toNat

instance : Coe String Text := ⟨ofString⟩

def concat (parts : List Text) : Text := parts.flatten

/-- The order of the first units that differ; a proper beginning of a text comes before it. -/
def le : Text → Text → Bool
  | [], _ => true
  | _ :: _, [] => false
  | a :: as, b :: bs => a < b || (a == b && le as bs)

/-- The texts in ascending order. -/
def sorted (ts : List Text) : List Text := ts.mergeSort le

/-- The parts between the occurrences of `mark`: one more than there are marks. -/
def splitOn (mark : CodeUnit) (t : Text) : List Text :=
  t.foldr (fun u parts =>
    if u = mark then [] :: parts
    else match parts with
      | [] => [[u]]
      | p :: ps => (u :: p) :: ps) [[]]

def join (separator : Text) (parts : List Text) : Text := List.intercalate separator parts

def startsWith (t beginning : Text) : Bool := beginning.isPrefixOf t

/-- The units that surround a text without belonging to it: the blanks of Unicode's space separators,
the line ends, and the byte order mark. -/
def isBlank (u : CodeUnit) : Bool :=
  (9 ≤ u && u ≤ 13) || u == 0x20 || u == 0xA0 || u == 0x1680 || (0x2000 ≤ u && u ≤ 0x200A)
    || u == 0x2028 || u == 0x2029 || u == 0x202F || u == 0x205F || u == 0x3000 || u == 0xFEFF

def trim (t : Text) : Text :=
  ((t.dropWhile isBlank).reverse.dropWhile isBlank).reverse

/-- A decimal digit's value. -/
def digit? (u : CodeUnit) : Option Nat :=
  if 0x30 ≤ u && u ≤ 0x39 then some (u.toNat - 0x30) else none

/-- A hexadecimal digit's value. -/
def hexDigit? (u : CodeUnit) : Option Nat :=
  if 0x30 ≤ u ∧ u ≤ 0x39 then some (u.toNat - 0x30)
  else if 0x41 ≤ u ∧ u ≤ 0x46 then some (u.toNat - 0x37)
  else if 0x61 ≤ u ∧ u ≤ 0x66 then some (u.toNat - 0x57)
  else none

/-- The lower case hexadecimal digit of a number below 16. -/
def hexDigit (n : Nat) : CodeUnit := UInt16.ofNat (if n < 10 then 0x30 + n else 0x57 + n)

def ofNat (n : Nat) : Text := (Nat.toDigits 10 n).map fun c => UInt16.ofNat c.toNat

def ofInt : Int → Text
  | .ofNat n => ofNat n
  | .negSucc n => 0x2D :: ofNat (n + 1)

/-- `n` with zeros in front up to `width` digits. -/
def ofNatPadded (width n : Nat) : Text :=
  let digits := ofNat n
  List.replicate (width - digits.length) 0x30 ++ digits

end Text
end SealedEnvelope
