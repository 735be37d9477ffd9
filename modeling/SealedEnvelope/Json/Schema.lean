import SealedEnvelope.Error
import SealedEnvelope.Json.Reader

/-!
# Shapes of JSON values

A schema reads a typed value out of an untrusted one, or out of a member that is not there. It fails
with the path to the first part that does not fit, in the order in which the schema names the parts.
Members that no schema names are not looked at.
-/

namespace SealedEnvelope

/-- Reads a value that may be missing. -/
abbrev Schema (α : Type) := Option Json → Except Path α

namespace Schema

variable {α β : Type}

def text : Schema Text
  | some (.str t) => .ok t
  | _ => .error []

def nonEmptyText : Schema Text
  | some (.str (u :: t)) => .ok (u :: t)
  | _ => .error []

/-- The given text and no other. -/
def literal (expected : Text) : Schema Unit
  | some (.str t) => if t = expected then .ok () else .error []
  | _ => .error []

/-- A text that names one of the alternatives. -/
def choice (ofText? : Text → Option α) : Schema α
  | some (.str t) =>
    match ofText? t with
    | some a => .ok a
    | none => .error []
  | _ => .error []

/-- A value that may be missing, but not `null`. -/
def optional (s : Schema α) : Schema (Option α)
  | none => .ok none
  | some v =>
    match s (some v) with
    | .ok a => .ok (some a)
    | .error path => .error path

def map (f : α → β) (s : Schema α) : Schema β := fun v =>
  match s v with
  | .ok a => .ok (f a)
  | .error path => .error path

/-- The first of two shapes that fits. -/
def either (s t : Schema α) : Schema α := fun v =>
  match s v, t v with
  | .ok a, _ => .ok a
  | _, .ok a => .ok a
  | _, _ => .error []

/-- What `s` reads from a part of the value, its failures seen from the whole. -/
def within (step : Text) (s : Schema α) (v : Option Json) : Except Path α :=
  match s v with
  | .ok a => .ok a
  | .error path => .error (step :: path)

/-- The member with the given key. -/
def field (members : List (Text × Json)) (key : Text) (s : Schema α) : Except Path α :=
  within key s (Members.get? members key)

def object (read : List (Text × Json) → Except Path α) : Schema α
  | some (.obj members) => read members
  | _ => .error []

/-- The items from position `i` on. -/
def itemsFrom (s : Schema α) : (i : Nat) → List Json → Except Path (List α)
  | _, [] => .ok []
  | i, v :: rest => do
    let a ← within (.ofNat i) s (some v)
    let as ← itemsFrom s (i + 1) rest
    return a :: as

/-- A list with at least one item. -/
def nonEmptyList (s : Schema α) : Schema (List α)
  | some (.arr []) => .error []
  | some (.arr items) => itemsFrom s 0 items
  | _ => .error []

/-- What the schema reads from a value. The error names the kind of value and where it does not fit. -/
def read (s : Schema α) (v : Option Json) (code : ErrorCode) (what : Text) : Except Error α :=
  match s v with
  | .ok a => .ok a
  | .error path => .error (.malformed code what path)

end Schema

/-- The value of a JSON text that a kind of value is expected in. -/
def Json.parse (t : Text) (code : ErrorCode) (what : Text) : Except Error Json :=
  match Json.parse? t with
  | some v => .ok v
  | none => .error (.notJson code what)

end SealedEnvelope
