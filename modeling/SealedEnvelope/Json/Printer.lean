import SealedEnvelope.Json.Basic
import SealedEnvelope.Number.Shortest
import SealedEnvelope.Text.Utf8

/-!
# Printing JSON

The text of a value has no blanks. In strings only the quote, the backslash, control characters and
surrogates without a partner are escaped. A number that is not finite is written as `null`, and a
negative zero without its sign.

Printing pushes onto the reversed text, so its depth is the nesting of the value and not its length.
-/

namespace SealedEnvelope

namespace Json

/-- A unit as a backslash, `u` and four hexadecimal digits. -/
def codeEscape (u : CodeUnit) : Text :=
  [0x5C, 0x75, Text.hexDigit (u.toNat / 0x1000), Text.hexDigit (u.toNat / 0x100 % 0x10),
    Text.hexDigit (u.toNat / 0x10 % 0x10), Text.hexDigit (u.toNat % 0x10)]

/-- How a unit outside a surrogate pair is written in a string. -/
def escaped (u : CodeUnit) : Text :=
  if u == 0x22 || u == 0x5C then [0x5C, u]
  else if u == 8 then [0x5C, 0x62]
  else if u == 9 then [0x5C, 0x74]
  else if u == 0xA then [0x5C, 0x6E]
  else if u == 0xC then [0x5C, 0x66]
  else if u == 0xD then [0x5C, 0x72]
  else if u < 0x20 || Text.isHighSurrogate u || Text.isLowSurrogate u then codeEscape u
  else [u]

def escapedOnto : Text → Text → Text
  | [], out => out
  | [u], out => (escaped u).reverseAux out
  | u :: v :: rest, out =>
    if Text.isHighSurrogate u && Text.isLowSurrogate v then escapedOnto rest (v :: u :: out)
    else escapedOnto (v :: rest) ((escaped u).reverseAux out)

def quotedOnto (t out : Text) : Text := 0x22 :: escapedOnto t (0x22 :: out)

def numberText (d : Double) : Text := if d.isFinite then d.text else "null"

mutual

/-- Pushes the text of a value onto a reversed text. -/
def textOnto : Json → Text → Text
  | .null, out => List.reverseAux (Text.ofString "null") out
  | .bool true, out => List.reverseAux (Text.ofString "true") out
  | .bool false, out => List.reverseAux (Text.ofString "false") out
  | .num d, out => (numberText d).reverseAux out
  | .str t, out => quotedOnto t out
  | .arr items, out => 0x5D :: itemsOnto items true (0x5B :: out)
  | .obj members, out => 0x7D :: membersOnto members true (0x7B :: out)

def itemsOnto : List Json → (first : Bool) → Text → Text
  | [], _, out => out
  | v :: rest, first, out => itemsOnto rest false (textOnto v (if first then out else 0x2C :: out))

def membersOnto : List (Text × Json) → (first : Bool) → Text → Text
  | [], _, out => out
  | (key, v) :: rest, first, out =>
    membersOnto rest false
      (textOnto v (0x3A :: quotedOnto key (if first then out else 0x2C :: out)))

end

def text (v : Json) : Text := (textOnto v []).reverse

end Json
end SealedEnvelope
