import SealedEnvelope.Payload.Canonical
import SealedEnvelope.Proofs.Json.NormalForm

/-!
# The canonical text of a JSON value

A payload that is a JSON value holds no code. So none of its objects is formed by itself or by a parent,
none collides with its parents, and its canonical text is the text of its normal form.
-/

namespace SealedEnvelope

namespace Payload

theorem get?_ofMembers (ms : List (Text × Json)) (key : Text) :
    Members.get? (ofMembers ms) key = (Members.get? ms key).map ofJson := by
  induction ms with
  | nil => rfl
  | cons m ms ih =>
    obtain ⟨k, v⟩ := m
    unfold Members.get? at ih ⊢
    unfold ofMembers
    rw [List.find?_cons, List.find?_cons]
    by_cases hk : k = key
    · rw [decide_eq_true hk]
      rfl
    · rw [decide_eq_false hk]
      exact ih

/-- A JSON object has its form from its parent, if at all. -/
theorem givenForm_ofMembers (ms : List (Text × Json)) {f : Option Form} (hf : f = none) :
    givenForm (ofMembers ms) f = none := by
  unfold givenForm
  rw [get?_ofMembers, hf]
  cases hget : Members.get? ms formKey with
  | none => rfl
  | some v => cases v <;> rfl

/-! ### No parent is code or has a form -/

mutual

theorem endsInCode_ofJson : ∀ v, endsInCode (ofJson v) = false
  | .null => rfl
  | .bool _ => rfl
  | .num _ => rfl
  | .str _ => rfl
  | .arr _ => rfl
  | .obj members => by
    unfold ofJson endsInCode
    rw [parentEndsInCode_ofMembers members, Bool.and_false]

theorem parentEndsInCode_ofMembers : ∀ ms, parentEndsInCode (ofMembers ms) = false
  | [] => rfl
  | (key, v) :: rest => by
    unfold ofMembers parentEndsInCode
    split
    · exact endsInCode_ofJson v
    · exact parentEndsInCode_ofMembers rest

end

mutual

theorem inheritedForm_ofJson : ∀ v, inheritedForm (ofJson v) = none
  | .null => rfl
  | .bool _ => rfl
  | .num _ => rfl
  | .str _ => rfl
  | .arr _ => rfl
  | .obj members => by
    unfold ofJson inheritedForm
    exact givenForm_ofMembers members (parentForm_ofMembers members)

theorem parentForm_ofMembers : ∀ ms, parentForm (ofMembers ms) = none
  | [] => rfl
  | (key, v) :: rest => by
    unfold ofMembers parentForm
    split
    · exact inheritedForm_ofJson v
    · exact parentForm_ofMembers rest

end

/-! ### Every JSON value can be ordered and formed -/

theorem collides_ofMembers (ms : List (Text × Json)) : collides (ofMembers ms) = false := by
  unfold collides
  rw [parentEndsInCode_ofMembers, Bool.false_and]

mutual

theorem isOrderable_ofJson : ∀ v, isOrderable (ofJson v) = true
  | .null => rfl
  | .bool _ => rfl
  | .num _ => rfl
  | .str _ => rfl
  | .arr items => itemsOrderable_ofItems items
  | .obj members => by
    unfold ofJson isOrderable
    rw [collides_ofMembers, membersOrderable_ofMembers members]
    exact Bool.or_true _

theorem itemsOrderable_ofItems : ∀ items, itemsOrderable (ofItems items) = true
  | [] => rfl
  | v :: rest => by
    unfold ofItems itemsOrderable
    rw [isOrderable_ofJson v, itemsOrderable_ofItems rest]
    rfl

theorem membersOrderable_ofMembers : ∀ ms, membersOrderable (ofMembers ms) = true
  | [] => rfl
  | (key, v) :: rest => by
    unfold ofMembers membersOrderable
    rw [isOrderable_ofJson v, membersOrderable_ofMembers rest]
    rfl

end

mutual

theorem form_ofJson : ∀ v, form true (ofJson v) = .value v.normal
  | .null => rfl
  | .bool _ => rfl
  | .num _ => rfl
  | .str _ => rfl
  | .arr items => by
    unfold ofJson form
    rw [itemForms_ofItems items]
    rfl
  | .obj members => by
    unfold ofJson form
    rw [if_pos rfl, givenForm_ofMembers members (parentForm_ofMembers members),
      memberForms_ofMembers members]
    change Form.value (.obj (Members.normal ((Json.normalMembers members).filter _))) = _
    rw [Members.normal_filter_reserved]
    rfl

theorem itemForms_ofItems : ∀ items,
    itemForms true (ofItems items) = some (Json.normalItems items)
  | [] => rfl
  | v :: rest => by
    unfold ofItems itemForms
    rw [form_ofJson v, itemForms_ofItems rest]
    rfl

theorem memberForms_ofMembers : ∀ ms,
    memberForms true (ofMembers ms) =
      some ((Json.normalMembers ms).filter fun m => m.1 ≠ reservedKey)
  | [] => rfl
  | (key, v) :: rest => by
    unfold ofMembers memberForms Json.normalMembers
    rw [memberForms_ofMembers rest]
    by_cases hkey : key = reservedKey
    · rw [if_pos ⟨rfl, hkey⟩, List.filter_cons_of_neg]
      rw [decide_eq_true_eq]
      exact not_not_intro hkey
    · rw [if_neg fun h => hkey h.2, form_ofJson v, List.filter_cons_of_pos]
      rw [decide_eq_true_eq]
      exact hkey

end

theorem canonicalText_ofJson (v : Json) : (ofJson v).canonicalText = .ok v.normal.text := by
  unfold canonicalText
  rw [isOrderable_ofJson, if_pos rfl, form_ofJson]

theorem canonicalBytes_ofJson (v : Json) :
    (ofJson v).canonicalBytes = .ok v.normal.text.utf8 := by
  unfold canonicalBytes
  rw [canonicalText_ofJson]
  rfl

end Payload
end SealedEnvelope
