import SealedEnvelope.Calendar
import SealedEnvelope.Error
import SealedEnvelope.Json.Printer
import SealedEnvelope.Payload.Parent

/-!
# Canonical text

The canonical text is that of the payload's normal form. It exists unless the payload itself has no
form, a big integer occurs where it would be written, or an object collides with its parents.

An object may bring its own form, itself or from a parent. That form is taken as it stands: its members
keep their order, and if it brings a form again, that one is not asked for. A date is formed from its
own instant, so an object that has its way of forming from a date cannot be formed.
-/

namespace SealedEnvelope

namespace Payload

/-- What JSON can say of a payload. -/
inductive Form
  | absent
  | value (v : Json)
  | unwritable

/-- An object's form: in normal order, or in the order given. -/
def objectForm (normalize : Bool) : Option (List (Text × Json)) → Form
  | none => .unwritable
  | some ms => .value (.obj (if normalize then Members.normal ms else ms))

/-- The form that an object is given by its own member for it, or else by its parent. A member that is
not code gives none, and hides the parent's. -/
def givenForm (members : List (Text × Payload)) (fromParent : Option Form) : Option Form :=
  match Members.get? members formKey with
  | some .function => some .absent
  | some _ => none
  | none => fromParent

mutual

/-- The form of a payload where objects may bring their own. -/
def form (normalize : Bool) : Payload → Form
  | .null => .value .null
  | .bool b => .value (.bool b)
  | .num d => .value (.ofNumber d)
  | .str t => .value (.str t)
  | .arr items =>
    match itemForms normalize items with
    | none => .unwritable
    | some vs => .value (.arr vs)
  | .obj members =>
    match givenForm members (if normalize then parentForm members else none) with
    | some f => f
    | none => objectForm normalize (memberForms normalize members)
  | .absent => .absent
  | .function => .absent
  | .bigInteger _ => .unwritable
  | .date instant =>
    .value (match instant with
      | none => .null
      | some ms => .str (Calendar.text ms))
  | .selfFormed _ own => ownForm own

/-- The form of a payload that an object has brought as its form. -/
def ownForm : Payload → Form
  | .null => .value .null
  | .bool b => .value (.bool b)
  | .num d => .value (.ofNumber d)
  | .str t => .value (.str t)
  | .arr items =>
    match itemForms false items with
    | none => .unwritable
    | some vs => .value (.arr vs)
  | .obj members => objectForm false (memberForms false members)
  | .absent => .absent
  | .function => .absent
  | .bigInteger _ => .unwritable
  | .date _ => .value (.obj [])
  | .selfFormed members _ => objectForm false (memberForms false members)

/-- The form that an object without its own has from a parent. -/
def inheritedForm : Payload → Option Form
  | .obj members => givenForm members (parentForm members)
  | .date _ => some .unwritable
  | .selfFormed _ own => some (ownForm own)
  | _ => none

/-- The form that members give their object through the parent among them. -/
def parentForm : List (Text × Payload) → Option Form
  | [] => none
  | (key, p) :: rest => if key = reservedKey then inheritedForm p else parentForm rest

def itemForms (normalize : Bool) : List Payload → Option (List Json)
  | [] => some []
  | p :: rest =>
    match form normalize p, itemForms normalize rest with
    | .value v, some vs => some (v :: vs)
    | .absent, some vs => some (.null :: vs)
    | _, _ => none

/-- The forms of members. In normal order the parent is not one of them. -/
def memberForms (normalize : Bool) : List (Text × Payload) → Option (List (Text × Json))
  | [] => some []
  | (key, p) :: rest =>
    if normalize ∧ key = reservedKey then memberForms normalize rest
    else
      match form normalize p, memberForms normalize rest with
      | .value v, some ms => some ((key, v) :: ms)
      | .absent, some ms => some ms
      | _, _ => none

end

/-- The canonical text of a payload. -/
def canonicalText (p : Payload) : Except Error Text :=
  if p.isOrderable then
    match form true p with
    | .value v => .ok v.text
    | _ => .error .notSerializable
  else .error .notSerializable

def canonicalBytes (p : Payload) : Except Error Bytes := do
  return (← p.canonicalText).utf8

end Payload
end SealedEnvelope
