import SealedEnvelope.Proofs.Envelope.Serializations

/-!
# Two forms on the wire

A text is taken for a compact envelope if it is not JSON and has three parts with dots between them. No
text that the compact reader accepts is JSON, so it makes no difference that JSON is tried first. The
two readers have no failure in common either: which of them a text was given to shows in what it is read
as, whether that succeeds or not.
-/

namespace SealedEnvelope

namespace Wire

/-- The text is read as the compact reader reads it, whether that reader accepts it or not. -/
def TakenAsCompact (t : Text) : Prop := ofText t = (Jws.ofCompact t).map signed

theorem isCompact_iff {t : Text} :
    isCompact t = true ↔ ∃ first second third, t.splitOn Jws.dot = [first, second, third] := by
  rw [isCompact, beq_iff_eq, List.length_eq_three]

/-- A text that is JSON is not read as the compact reader would read it, even if both readings fail. -/
theorem not_takenAsCompact_of_json {t : Text} {v : Json} (h : Json.parse? t = some v) :
    ¬TakenAsCompact t := by
  intro htaken
  rw [TakenAsCompact, ofText, h] at htaken
  cases hcompact : Jws.ofCompact t with
  | ok j =>
    rw [Jws.parse?_of_ofCompact hcompact] at h
    cases h
  | error e =>
    rw [hcompact] at htaken
    exact (failsAs_ofJson v e htaken).not_compact (Jws.failsAs_ofCompact t e hcompact)

theorem takenAsCompact_iff {t : Text} :
    TakenAsCompact t ↔ Json.parse? t = none ∧ isCompact t = true := by
  cases hparse : Json.parse? t with
  | some v =>
    refine iff_of_false (not_takenAsCompact_of_json hparse) ?_
    rintro ⟨hnone, -⟩
    cases hnone
  | none =>
    simp only [TakenAsCompact, ofText, hparse, true_and]
    split
    · rename_i hparts
      exact iff_of_true rfl hparts
    · rename_i hparts
      refine iff_of_false ?_ hparts
      have hlength : (t.splitOn Jws.dot).length ≠ 3 := mt beq_iff_eq.mpr hparts
      rw [Jws.ofCompact_of_length_ne hlength]
      intro hsame
      cases hsame

end Wire

namespace Envelope

theorem unpack_of_takenAsCompact {s : Text} (h : Wire.TakenAsCompact s.trim) (keys : KeyManager)
    (options : UnpackOptions) :
    unpack s keys options = (do
      checkSize s options
      let j ← Jws.ofCompact s.trim
      checkMode .signed options
      openWire (.signed j) keys options) := by
  rw [Wire.TakenAsCompact] at h
  rw [unpack, h]
  cases Jws.ofCompact s.trim <;> rfl

/-- A text that is a compact envelope is no JSON, with or without the blanks around it, and it is
unpacked as that envelope. A text is taken for one exactly if it is no JSON and has three parts. -/
theorem compact_disjoint_json (s : Text) :
    (∀ j, Jws.ofCompact s = .ok j →
      Json.parse? s = none ∧ Json.parse? s.trim = none ∧
        ∀ (keys : KeyManager) (options : UnpackOptions), unpack s keys options = do
          checkSize s options
          checkMode .signed options
          openWire (.signed j.trimmed) keys options) ∧
    (Wire.TakenAsCompact s.trim ↔ Json.parse? s.trim = none ∧
      ∃ first second third, s.trim.splitOn Jws.dot = [first, second, third]) ∧
    (Wire.TakenAsCompact s.trim →
      (∃ first second third, s.splitOn Jws.dot = [first, second, third]) ∧
        ∀ (keys : KeyManager) (options : UnpackOptions), unpack s keys options = do
          checkSize s options
          let j ← Jws.ofCompact s.trim
          checkMode .signed options
          openWire (.signed j) keys options) := by
  have hiff := Wire.takenAsCompact_iff (t := s.trim)
  rw [Wire.isCompact_iff] at hiff
  refine ⟨?_, hiff, ?_⟩
  · intro j hj
    have htrim := Jws.ofCompact_trim hj
    refine ⟨Jws.parse?_of_ofCompact hj, Jws.parse?_of_ofCompact htrim, ?_⟩
    intro keys options
    rw [unpack, ofText_of_ofCompact hj]
    rfl
  · intro htaken
    obtain ⟨-, hparts⟩ := hiff.mp htaken
    rw [← List.length_eq_three, Text.length_splitOn_trim rfl, List.length_eq_three] at hparts
    exact ⟨hparts, unpack_of_takenAsCompact htaken⟩

/-- A header with a byte order mark begins with the digits of a number. A string with dots in it is
JSON, and three numbers with dots between them are not. -/
theorem compact_disjoint_json_samples :
    (∃ j, Jws.ofCompact "77u_eyJ0eXAiOiJ0IiwiYWxnIjoiRWREU0EiLCJraWQiOiJrIn0.1e5.5 " = .ok j ∧
      Json.parse? "77u_eyJ0eXAiOiJ0IiwiYWxnIjoiRWREU0EiLCJraWQiOiJrIn0.1e5.5" = none) ∧
    (¬Wire.TakenAsCompact (Text.trim "\"a.b.c\"") ∧ Wire.TakenAsCompact (Text.trim "1.2.3 ")) ∧
    ∃ first second third, Text.splitOn Jws.dot "1.2.3 " = [first, second, third] := by
  have hread : (Jws.ofCompact
      "77u_eyJ0eXAiOiJ0IiwiYWxnIjoiRWREU0EiLCJraWQiOiJrIn0.1e5.5 ").toOption.isSome = true := by
    decide +kernel
  obtain ⟨j, hj⟩ := exists_ok hread
  have hstring : Json.parse? (Text.trim "\"a.b.c\"") ≠ none := by decide +kernel
  have hnumbers : Wire.TakenAsCompact (Text.trim "1.2.3 ") :=
    (compact_disjoint_json "1.2.3 ").2.1.mpr ⟨by decide +kernel, _, _, _, rfl⟩
  refine ⟨⟨j, hj, ((compact_disjoint_json _).1 j hj).2.1⟩, ⟨?_, hnumbers⟩, ?_⟩
  · intro htaken
    exact hstring ((compact_disjoint_json "\"a.b.c\"").2.1.mp htaken).1
  · exact ((compact_disjoint_json "1.2.3 ").2.2 hnumbers).1

end Envelope
end SealedEnvelope
