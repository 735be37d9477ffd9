import SealedEnvelope.Proofs.Json.Members
import SealedEnvelope.Proofs.Json.Reading

/-!
# Normal forms are settled

Whatever value a program holds, its normal form comes back from its text as it is: the members of its
objects are arranged, its numbers are finite and none of them is a negative zero.
-/

namespace SealedEnvelope

namespace Json

mutual

/-- A value as programs hold it: the keys of an object differ, and numbers are doubles. -/
def WellFormed : Json → Prop
  | .num d => d.IsBinary64
  | .arr items => WellFormedItems items
  | .obj members => Members.Distinct members ∧ WellFormedMembers members
  | _ => True

def WellFormedItems : List Json → Prop
  | [] => True
  | v :: rest => WellFormed v ∧ WellFormedItems rest

def WellFormedMembers : List (Text × Json) → Prop
  | [] => True
  | (_, v) :: rest => WellFormed v ∧ WellFormedMembers rest

end

theorem isBinary64_unsignedZero {d : Double} (h : d.IsBinary64) : d.unsignedZero.IsBinary64 := by
  unfold Double.unsignedZero
  split
  · exact h
  · exact h

theorem unsignedZero_unsignedZero (d : Double) : d.unsignedZero.unsignedZero = d.unsignedZero := by
  cases d with
  | nan => rfl
  | infinite negative => rfl
  | finite negative units => cases units <;> rfl

theorem isFinite_unsignedZero (d : Double) : d.unsignedZero.isFinite = d.isFinite := by
  cases d with
  | nan => rfl
  | infinite negative => rfl
  | finite negative units => cases units <;> rfl

theorem settled_ofNumber {d : Double} (h : d.IsBinary64) : Settled (ofNumber d) := by
  unfold ofNumber
  split
  · rename_i hfinite
    exact ⟨(isFinite_unsignedZero d).trans hfinite, isBinary64_unsignedZero h,
      unsignedZero_unsignedZero d⟩
  · trivial

theorem settledMembers_iff (ms : List (Text × Json)) :
    SettledMembers ms ↔ ∀ m ∈ ms, Settled m.2 := by
  induction ms with
  | nil => exact ⟨fun _ m hm => absurd hm List.not_mem_nil, fun _ => trivial⟩
  | cons m ms ih =>
    rw [List.forall_mem_cons, ← ih]
    rfl

theorem map_fst_normalMembers (ms : List (Text × Json)) :
    (normalMembers ms).map Prod.fst = ms.map Prod.fst := by
  induction ms with
  | nil => rfl
  | cons m ms ih => exact congrArg (m.1 :: ·) ih

theorem hasMember_normal (v : Json) {key : Text} (hkey : key ≠ reservedKey) :
    v.normal.hasMember key = v.hasMember key := by
  cases v with
  | null => rfl
  | bool b => rfl
  | num d =>
    unfold normal ofNumber
    split <;> rfl
  | str t => rfl
  | arr items => rfl
  | obj members =>
    change Members.hasKey (Members.normal (normalMembers members)) key = Members.hasKey members key
    rw [Members.hasKey_normal _ hkey, Bool.eq_iff_iff, Members.hasKey_iff, Members.hasKey_iff,
      map_fst_normalMembers]

theorem distinct_normalMembers {ms : List (Text × Json)} (h : Members.Distinct ms) :
    Members.Distinct (normalMembers ms) := by
  unfold Members.Distinct
  rw [map_fst_normalMembers]
  exact h

mutual

theorem settled_normal : ∀ v, WellFormed v → Settled (normal v)
  | .null, _ => trivial
  | .bool _, _ => trivial
  | .num _, h => settled_ofNumber h
  | .str _, _ => trivial
  | .arr items, h => settledItems_normal items h
  | .obj members, h => by
    refine ⟨Members.ofWritten_normal (distinct_normalMembers h.1), ?_⟩
    rw [settledMembers_iff]
    intro m hm
    exact (settledMembers_iff _).mp (settledMembers_normal members h.2) m
      (Members.mem_of_mem_normal hm)

theorem settledItems_normal : ∀ items, WellFormedItems items → SettledItems (normalItems items)
  | [], _ => trivial
  | v :: rest, h => ⟨settled_normal v h.1, settledItems_normal rest h.2⟩

theorem settledMembers_normal : ∀ members,
    WellFormedMembers members → SettledMembers (normalMembers members)
  | [], _ => trivial
  | (_, v) :: rest, h => ⟨settled_normal v h.1, settledMembers_normal rest h.2⟩

end

end Json
end SealedEnvelope
