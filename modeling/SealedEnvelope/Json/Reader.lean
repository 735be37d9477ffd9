import SealedEnvelope.Json.Basic

/-!
# Reading JSON

A text is read unit by unit, without looking ahead and without going back: the state is the stack of
arrays and objects that are open and what is expected next. So reading is one fold, it ends on every
text, and nesting costs no depth of recursion.
-/

namespace SealedEnvelope

namespace Json

/-- Where a numeral may go on. -/
inductive Phase
  | sign | zero | whole | point | fraction | mark | exponentSign | exponent
  deriving DecidableEq

/-- The part of a numeral that has been read. -/
structure Numeral where
  phase : Phase
  negative : Bool := false
  mantissa : Nat := 0
  places : Nat := 0
  exponentNegative : Bool := false
  exponent : Nat := 0

/-- The numeral with one more unit, if that is how numerals go on. -/
def Numeral.next? (n : Numeral) (u : CodeUnit) : Option Numeral :=
  match n.phase, Text.digit? u with
  | .sign, some 0 => some { n with phase := .zero }
  | .sign, some d => some { n with phase := .whole, mantissa := d }
  | .whole, some d => some { n with mantissa := n.mantissa * 10 + d }
  | .point, some d | .fraction, some d =>
    some { n with phase := .fraction, mantissa := n.mantissa * 10 + d, places := n.places + 1 }
  | .mark, some d | .exponentSign, some d | .exponent, some d =>
    some { n with phase := .exponent, exponent := n.exponent * 10 + d }
  | .mark, none =>
    if u = 0x2B then some { n with phase := .exponentSign }
    else if u = 0x2D then some { n with phase := .exponentSign, exponentNegative := true }
    else none
  | .zero, none | .whole, none =>
    if u = 0x2E then some { n with phase := .point }
    else if u = 0x65 ∨ u = 0x45 then some { n with phase := .mark }
    else none
  | .fraction, none => if u = 0x65 ∨ u = 0x45 then some { n with phase := .mark } else none
  | _, _ => none

/-- The value of a numeral that may end here. -/
def Numeral.value? (n : Numeral) : Option Double :=
  match n.phase with
  | .zero | .whole | .fraction | .exponent =>
    let e : Int := if n.exponentNegative then -(n.exponent : Int) else n.exponent
    some (.ofDecimal n.negative n.mantissa (e - n.places))
  | _ => none

/-- An array or object that is open, with what it holds so far, last first. -/
inductive Frame
  | items (done : List Json)
  | members (done : List (Text × Json)) (key : Text)

/-- What is expected next. -/
inductive Mode
  | value
  | firstItem
  | firstKey
  | key
  | colon
  | after
  | string (isKey : Bool) (done : Text)
  | escape (isKey : Bool) (done : Text)
  | code (isKey : Bool) (done : Text) (digits value : Nat)
  | word (rest : Text) (v : Json)
  | number (n : Numeral)
  | finished (v : Json)
  | refused

structure Reading where
  stack : List Frame
  mode : Mode

namespace Reading

def refuse : Reading := ⟨[], .refused⟩

/-- A value has been read in full. -/
def complete (v : Json) : List Frame → Reading
  | [] => ⟨[], .finished v⟩
  | .items done :: rest => ⟨.items (v :: done) :: rest, .after⟩
  | .members done key :: rest => ⟨.members ((key, v) :: done) [] :: rest, .after⟩

def isSpace (u : CodeUnit) : Bool := u == 0x20 || u == 0xA || u == 0xD || u == 9

/-- A string has been read in full. -/
def completeString (stack : List Frame) (isKey : Bool) (t : Text) : Reading :=
  if isKey then
    match stack with
    | .members done _ :: rest => ⟨.members done t :: rest, .colon⟩
    | _ => refuse
  else complete (.str t) stack

def beginValue (stack : List Frame) (u : CodeUnit) : Reading :=
  if u = 0x22 then ⟨stack, .string false []⟩
  else if u = 0x5B then ⟨.items [] :: stack, .firstItem⟩
  else if u = 0x7B then ⟨.members [] [] :: stack, .firstKey⟩
  else if u = 0x6E then ⟨stack, .word "ull" .null⟩
  else if u = 0x74 then ⟨stack, .word "rue" (.bool true)⟩
  else if u = 0x66 then ⟨stack, .word "alse" (.bool false)⟩
  else if u = 0x2D then ⟨stack, .number { phase := .sign, negative := true }⟩
  else match Numeral.next? { phase := .sign } u with
    | some n => ⟨stack, .number n⟩
    | none => refuse

def closeArray : List Frame → Reading
  | .items done :: rest => complete (.arr done.reverse) rest
  | _ => refuse

def closeObject : List Frame → Reading
  | .members done _ :: rest => complete (.obj (Members.ofWritten done.reverse)) rest
  | _ => refuse

/-- The unit after a value. -/
def afterValue (r : Reading) (u : CodeUnit) : Reading :=
  if isSpace u then r
  else match r.mode, r.stack with
    | .after, .items done :: rest =>
      if u = 0x2C then ⟨.items done :: rest, .value⟩
      else if u = 0x5D then closeArray r.stack
      else refuse
    | .after, .members done key :: rest =>
      if u = 0x2C then ⟨.members done key :: rest, .key⟩
      else if u = 0x7D then closeObject r.stack
      else refuse
    | _, _ => refuse

/-- What a backslash and `u` stand for, four-digit codes apart. -/
def unescaped? (u : CodeUnit) : Option CodeUnit :=
  if u = 0x22 ∨ u = 0x5C ∨ u = 0x2F then some u
  else if u = 0x62 then some 8
  else if u = 0x66 then some 0xC
  else if u = 0x6E then some 0xA
  else if u = 0x72 then some 0xD
  else if u = 0x74 then some 9
  else none

def next (r : Reading) (u : CodeUnit) : Reading :=
  match r.mode with
  | .value => if isSpace u then r else beginValue r.stack u
  | .firstItem =>
    if isSpace u then r else if u = 0x5D then closeArray r.stack else beginValue r.stack u
  | .firstKey =>
    if isSpace u then r
    else if u = 0x7D then closeObject r.stack
    else if u = 0x22 then ⟨r.stack, .string true []⟩
    else refuse
  | .key =>
    if isSpace u then r else if u = 0x22 then ⟨r.stack, .string true []⟩ else refuse
  | .colon => if isSpace u then r else if u = 0x3A then ⟨r.stack, .value⟩ else refuse
  | .after | .finished _ => afterValue r u
  | .string isKey done =>
    if u = 0x22 then completeString r.stack isKey done.reverse
    else if u = 0x5C then ⟨r.stack, .escape isKey done⟩
    else if u < 0x20 then refuse
    else ⟨r.stack, .string isKey (u :: done)⟩
  | .escape isKey done =>
    if u = 0x75 then ⟨r.stack, .code isKey done 0 0⟩
    else match unescaped? u with
      | some c => ⟨r.stack, .string isKey (c :: done)⟩
      | none => refuse
  | .code isKey done digits value =>
    match Text.hexDigit? u with
    | some d =>
      if digits < 3 then ⟨r.stack, .code isKey done (digits + 1) (value * 16 + d)⟩
      else ⟨r.stack, .string isKey (UInt16.ofNat (value * 16 + d) :: done)⟩
    | none => refuse
  | .word rest v =>
    match rest with
    | [] => refuse
    | c :: more =>
      if u ≠ c then refuse
      else if more = [] then complete v r.stack
      else ⟨r.stack, .word more v⟩
  | .number n =>
    match n.next? u with
    | some m => ⟨r.stack, .number m⟩
    | none =>
      match n.value? with
      | some d => afterValue (complete (.num d) r.stack) u
      | none => refuse
  | .refused => r

/-- The value, if the text may end here. -/
def result? (r : Reading) : Option Json :=
  match r.mode, r.stack with
  | .finished v, _ => some v
  | .number n, [] => n.value?.map .num
  | _, _ => none

end Reading

/-- The value of a JSON text, or `none` if the text is not JSON. -/
def parse? (t : Text) : Option Json := (t.foldl Reading.next ⟨[], .value⟩).result?

end Json
end SealedEnvelope
