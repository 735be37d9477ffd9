import SealedEnvelope.Json.Basic

/-!
# Payloads

A payload is any value that a caller hands over: JSON, or values that JSON cannot hold as they are.
-/

namespace SealedEnvelope

inductive Payload
  | null
  | bool (b : Bool)
  | num (d : Double)
  | str (t : Text)
  | arr (items : List Payload)
  | obj (members : List (Text × Payload))
  /-- No value. It vanishes from objects and is `null` in arrays. -/
  | absent
  /-- Code. It is treated as no value, and when it is run it gives no value. -/
  | function
  | bigInteger (n : Int)
  /-- An instant in milliseconds, or an invalid one. -/
  | date (instant : Option Int)
  /-- An object that brings its own form. -/
  | selfFormed (members : List (Text × Payload)) (form : Payload)

namespace Payload

mutual

def ofJson : Json → Payload
  | .null => .null
  | .bool b => .bool b
  | .num d => .num d
  | .str t => .str t
  | .arr items => .arr (ofItems items)
  | .obj members => .obj (ofMembers members)

def ofItems : List Json → List Payload
  | [] => []
  | v :: rest => ofJson v :: ofItems rest

def ofMembers : List (Text × Json) → List (Text × Payload)
  | [] => []
  | (key, v) :: rest => (key, ofJson v) :: ofMembers rest

end

end Payload
end SealedEnvelope
