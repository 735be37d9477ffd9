import SealedEnvelope.Proofs.Json.Reordering
import SealedEnvelope.Proofs.Payload.Canonical

/-!
# What a canonical text means

The canonical text of a JSON value reads back as the value itself, reordered and tidied, and the keys of
every object stand in it in their order. So one text is shared only by values that are equal up to
that, and by all of these. All that is said of well-formed values holds of every value that is read from
a text, since reading gives no others (`Json.wellFormed_of_parse?`).
-/

namespace SealedEnvelope

namespace Payload

theorem canonicalText_eq_iff {v w : Json} (hv : v.WellFormed) (hw : w.WellFormed) :
    (ofJson v).canonicalText = (ofJson w).canonicalText ↔ v.tidied.Reordered w.tidied := by
  rw [canonicalText_ofJson, canonicalText_ofJson, Except.ok.injEq, ← Json.normal_eq_normal_iff hv]
  constructor
  · exact Json.text_inj (Json.settled_normal v hv) (Json.settled_normal w hw)
  · exact congrArg Json.text

/-- A value has a canonical text. It is the text of a value `w` in which the keys are in order, and which
is the value but for the order of members and for what is tidied away. Reading the text gives `w`, and
`w` has the same canonical text, as have all values that are equal up to those changes and no others. -/
theorem canonicalText_meaning (v : Json) (hv : v.WellFormed) :
    ∃ w : Json, (ofJson v).canonicalText = .ok w.text ∧ Json.parse? w.text = some w ∧
      v.tidied.Reordered w ∧ w.Ordered ∧ (ofJson w).canonicalText = .ok w.text ∧
      ∀ v' : Json, v'.WellFormed →
        ((ofJson v').canonicalText = (ofJson v).canonicalText ↔ v'.tidied.Reordered v.tidied) := by
  refine ⟨v.normal, canonicalText_ofJson v, Json.parse?_text (Json.settled_normal v hv),
    Json.reordered_tidied_normal v, Json.ordered_normal v hv, ?_, ?_⟩
  · rw [canonicalText_ofJson, Json.normal_normal hv]
  · intro v' hv'
    exact canonicalText_eq_iff hv' hv

/-- Indices behind other keys, the reserved key, half of a surrogate pair and numbers that are tidied. -/
def mixedValue : Json :=
  .obj [("b", .num (.finite true 0)), ("10", .str [0xD800]), ("__proto__", .bool true),
    ("9", .arr [.num (.infinite false), .obj [("", .null), ("1", .str "/")]])]

theorem canonicalText_meaning_mixed :
    mixedValue.WellFormed ∧ ∃ w : Json, (ofJson mixedValue).canonicalText = .ok w.text ∧
      w.text = "\x7b\"9\":[null,\x7b\"1\":\"/\",\"\":null\x7d],\"10\":\"\\ud800\",\"b\":0\x7d" ∧
      Json.parse? w.text = some w ∧ mixedValue.tidied.Reordered w ∧ w.Ordered := by
  have hformed : mixedValue.WellFormed :=
    ⟨by decide, ⟨by decide +kernel, dvd_zero _⟩, trivial, trivial,
      ⟨trivial, ⟨by decide, trivial, trivial, trivial⟩, trivial⟩, trivial⟩
  have hinner : (Json.obj [("", .null), ("1", .str "/")]).normal =
      .obj [("1", .str "/"), ("", .null)] :=
    congrArg Json.obj (Members.normal_eq_of_inOrder (by decide) (by decide) (.swap _ _ _))
  have hnormal : mixedValue.normal =
      .obj [("9", .arr [.null, (Json.obj [("", .null), ("1", .str "/")]).normal]),
        ("10", .str [0xD800]), ("b", .num (.finite false 0))] :=
    congrArg Json.obj
      (Members.normal_eq_of_inOrder (by decide) (by decide) (List.reverse_perm _).symm)
  have htext : mixedValue.normal.text =
      "\x7b\"9\":[null,\x7b\"1\":\"/\",\"\":null\x7d],\"10\":\"\\ud800\",\"b\":0\x7d" := by
    rw [hnormal, hinner]
    decide +kernel
  obtain ⟨w, hw, hback, hreordered, hordered, -⟩ := canonicalText_meaning mixedValue hformed
  refine ⟨hformed, w, hw, ?_, hback, hreordered, hordered⟩
  rw [← Except.ok.inj ((canonicalText_ofJson _).symm.trans hw), htext]

end Payload
end SealedEnvelope
