import SealedEnvelope.Number.Double
import SealedEnvelope.Text.Basic

/-!
# JSON values

Members of an object have an order that printing shows: keys that are array indices come first in
ascending order, then the others as they were first written. A key written twice keeps its first place
and its last value.
-/

namespace SealedEnvelope

inductive Json
  | null
  | bool (b : Bool)
  | num (d : Double)
  | str (t : Text)
  | arr (items : List Json)
  | obj (members : List (Text × Json))

/-- The largest array index. -/
def largestIndex : Nat := 4294967294

/-- The array index that a key spells in plain decimal, without leading zeros. -/
def indexKey? (key : Text) : Option Nat :=
  if key.length = 0 ∨ 10 < key.length ∨ (1 < key.length ∧ key.head? = some 0x30) then none
  else
    match key.mapM Text.digit? with
    | none => none
    | some digits =>
      let n := digits.foldl (fun n d => n * 10 + d) 0
      if n ≤ largestIndex then some n else none

namespace Members

variable {α : Type}

/-- The value of the first member with this key. -/
def get? (ms : List (Text × α)) (key : Text) : Option α :=
  (ms.find? fun m => m.1 = key).map Prod.snd

def hasKey (ms : List (Text × α)) (key : Text) : Bool := ms.any fun m => m.1 = key

/-- Replaces the value of a key in its place, or adds the key at the end. -/
def put : List (Text × α) → Text → α → List (Text × α)
  | [], key, v => [(key, v)]
  | (k, w) :: rest, key, v => if k = key then (k, v) :: rest else (k, w) :: put rest key v

/-- Array indices first, ascending; the others keep their order. -/
def arranged (ms : List (Text × α)) : List (Text × α) :=
  let isIndex (m : Text × α) : Bool := (indexKey? m.1).isSome
  (ms.filter isIndex).mergeSort
      (fun a b => decide ((indexKey? a.1).getD 0 ≤ (indexKey? b.1).getD 0))
    ++ ms.filter fun m => !isIndex m

/-- The members of an object from the list as written. -/
def ofWritten (ms : List (Text × α)) : List (Text × α) :=
  arranged (ms.foldl (fun done m => put done m.1 m.2) [])

end Members

namespace Json

/-- The value of a member of an object. -/
def get? (v : Json) (key : Text) : Option Json :=
  match v with
  | .obj ms => Members.get? ms key
  | _ => none

def hasMember (v : Json) (key : Text) : Bool :=
  match v with
  | .obj ms => Members.hasKey ms key
  | _ => false

def ofNat (n : Nat) : Json := .num (.ofNat n)

/-- An object with the members that have a value, in the order given. -/
def ofOptional (ms : List (Text × Option Json)) : Json :=
  .obj (ms.filterMap fun m => m.2.map fun v => (m.1, v))

end Json
end SealedEnvelope
