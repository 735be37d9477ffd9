import SealedEnvelope.Json.Basic

/-!
# Normal form

Values that differ only in the order of members have one normal form: keys ascend by code unit, behind
those that are array indices. The reserved member is left out, numbers that are not finite become
`null`, and negative zero becomes zero. Nothing else changes.
-/

namespace SealedEnvelope

/-- The key that no normal form has. -/
def reservedKey : Text := "__proto__"

namespace Members

variable {α : Type}

def ascending (ms : List (Text × α)) : List (Text × α) := ms.mergeSort fun a b => Text.le a.1 b.1

/-- Members in normal order, without the reserved one. -/
def normal (ms : List (Text × α)) : List (Text × α) :=
  arranged (ascending (ms.filter fun m => m.1 ≠ reservedKey))

end Members

namespace Json

/-- A number as JSON can write it. -/
def ofNumber (d : Double) : Json := if d.isFinite then .num d.unsignedZero else .null

mutual

def normal : Json → Json
  | .num d => ofNumber d
  | .arr items => .arr (normalItems items)
  | .obj members => .obj (Members.normal (normalMembers members))
  | v => v

def normalItems : List Json → List Json
  | [] => []
  | v :: rest => normal v :: normalItems rest

def normalMembers : List (Text × Json) → List (Text × Json)
  | [] => []
  | (key, v) :: rest => (key, normal v) :: normalMembers rest

end

end Json
end SealedEnvelope
