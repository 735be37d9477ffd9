import SealedEnvelope.Json.Normal
import SealedEnvelope.Payload.Basic

/-!
# Parents

Putting the members of an object in normal order makes a new object. The reserved member is none of
its members: if it is an object, it becomes the parent of the new one, and its own reserved member the
parent of that, and so on. What an object does not have itself it has from its nearest parent that does.

Two things come from parents. One is the way in which an object is formed. The other is a limit: code
keeps some keys for itself, so an object whose parents end in code cannot have members under them.
-/

namespace SealedEnvelope

namespace Payload

/-- The key of the member that forms an object, if it is code. -/
def formKey : Text := "toJSON"

/-- The keys that code keeps for itself. -/
def codeKeys : List Text := ["arguments", "caller", "length", "name"]

/-- Whether an object has code to form it. Such an object is taken as it is. -/
def bringsCode (members : List (Text × Payload)) : Bool :=
  match Members.get? members formKey with
  | some .function => true
  | _ => false

mutual

/-- Whether a payload is code or an object whose parents end in code. -/
def endsInCode : Payload → Bool
  | .function => true
  | .obj members => !bringsCode members && parentEndsInCode members
  | _ => false

/-- `endsInCode` of the parent that members give. -/
def parentEndsInCode : List (Text × Payload) → Bool
  | [] => false
  | (key, p) :: rest => if key = reservedKey then endsInCode p else parentEndsInCode rest

end

/-- Whether members collide with the keys that their object's parents keep. -/
def collides (members : List (Text × Payload)) : Bool :=
  parentEndsInCode members && members.any fun m => codeKeys.contains m.1

mutual

/-- Whether a payload can be put in normal order: no object in it collides with its parents. -/
def isOrderable : Payload → Bool
  | .arr items => itemsOrderable items
  | .obj members => bringsCode members || (membersOrderable members && !collides members)
  | _ => true

def itemsOrderable : List Payload → Bool
  | [] => true
  | p :: rest => isOrderable p && itemsOrderable rest

def membersOrderable : List (Text × Payload) → Bool
  | [] => true
  | (_, p) :: rest => isOrderable p && membersOrderable rest

end

end Payload
end SealedEnvelope
