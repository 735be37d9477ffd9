import SealedEnvelope.Proofs.Json.Reading

/-!
# Texts that cannot be JSON

Outside of strings, arrays and objects a JSON text is a word or a numeral with blanks around it, and a
dot can only be the point of the numeral. So a text that opens none of them with its first unit and has
two dots is refused, whatever stands before, between and behind the dots.
-/

namespace SealedEnvelope

namespace Json

def point : CodeUnit := 0x2E

/-- Whether the point of a numeral cannot follow any more. -/
def Phase.pointed : Phase → Bool
  | sign | zero | whole => false
  | point | fraction | mark | exponentSign | exponent => true

namespace Numeral

variable {n m : Numeral} {u : CodeUnit}

theorem next?_point (n : Numeral) :
    n.next? Json.point =
      if n.phase = .zero ∨ n.phase = .whole then some { n with phase := .point } else none := by
  obtain ⟨phase, negative, mantissa, places, exponentNegative, exponent⟩ := n
  cases phase <;> rfl

theorem pointed_of_next? (hn : n.phase.pointed = true) (h : n.next? u = some m) :
    m.phase.pointed = true := by
  cases hphase : n.phase with
  | sign | zero | whole =>
    rw [hphase] at hn
    cases hn
  | point | fraction | mark | exponentSign | exponent =>
    cases hdigit : Text.digit? u <;> grind [next?, Phase.pointed]

end Numeral

namespace Reading

/-- The readers outside of strings, arrays and objects that have begun to read a value. -/
inductive Bare : Reading → Prop
  | refused : Bare refuse
  | finished (v : Json) : Bare ⟨[], .finished v⟩
  | word {rest : Text} (v : Json) (h : point ∉ rest) : Bare ⟨[], .word rest v⟩
  | number (n : Numeral) : Bare ⟨[], .number n⟩

/-- Those among them that refuse a dot. -/
inductive Pointed : Reading → Prop
  | refused : Pointed refuse
  | finished (v : Json) : Pointed ⟨[], .finished v⟩
  | number {n : Numeral} (h : n.phase.pointed = true) : Pointed ⟨[], .number n⟩

theorem afterValue_finished (v : Json) (u : CodeUnit) :
    afterValue ⟨[], .finished v⟩ u = if isSpace u then ⟨[], .finished v⟩ else refuse := by
  unfold afterValue
  split <;> rfl

/-- A numeral goes on, or it is over, or the text is refused. -/
theorem next_number (n : Numeral) (u : CodeUnit) :
    (∃ m, n.next? u = some m ∧ next ⟨[], .number n⟩ u = ⟨[], .number m⟩) ∨
      (isSpace u = true ∧ ∃ v, next ⟨[], .number n⟩ u = ⟨[], .finished v⟩) ∨
      next ⟨[], .number n⟩ u = refuse := by
  simp only [next]
  split
  · rename_i m hm
    exact Or.inl ⟨m, hm, rfl⟩
  · split
    · simp only [complete, afterValue_finished]
      split
      · rename_i hspace
        exact Or.inr (Or.inl ⟨hspace, _, rfl⟩)
      · exact Or.inr (Or.inr rfl)
    · exact Or.inr (Or.inr rfl)

theorem Bare.next {r : Reading} (h : r.Bare) (u : CodeUnit) : (r.next u).Bare := by
  cases h with
  | refused => exact .refused
  | finished v =>
    change (afterValue ⟨[], .finished v⟩ u).Bare
    rw [afterValue_finished]
    split
    · exact .finished v
    · exact .refused
  | @word rest v h =>
    cases rest with
    | nil => exact .refused
    | cons c more =>
      simp only [Reading.next]
      split
      · exact .refused
      · split
        · exact .finished v
        · exact .word v fun hmore => h (List.mem_cons_of_mem c hmore)
  | number n =>
    rcases next_number n u with ⟨m, -, hnext⟩ | ⟨-, v, hnext⟩ | hnext
    · rw [hnext]
      exact .number m
    · rw [hnext]
      exact .finished v
    · rw [hnext]
      exact .refused

theorem Pointed.next {r : Reading} (h : r.Pointed) (u : CodeUnit) : (r.next u).Pointed := by
  cases h with
  | refused => exact .refused
  | finished v =>
    change (afterValue ⟨[], .finished v⟩ u).Pointed
    rw [afterValue_finished]
    split
    · exact .finished v
    · exact .refused
  | @number n hn =>
    rcases next_number n u with ⟨m, hm, hnext⟩ | ⟨-, v, hnext⟩ | hnext
    · rw [hnext]
      exact .number (Numeral.pointed_of_next? hn hm)
    · rw [hnext]
      exact .finished v
    · rw [hnext]
      exact .refused

/-- A dot is the point of a numeral or it is refused. -/
theorem Bare.next_point {r : Reading} (h : r.Bare) : (r.next point).Pointed := by
  cases h with
  | refused | finished v => exact .refused
  | @word rest v h =>
    cases rest with
    | nil => exact .refused
    | cons c more =>
      have hc : point ≠ c := fun hc => h (hc ▸ List.mem_cons_self)
      simp only [Reading.next, if_pos hc]
      exact .refused
  | number n =>
    rcases next_number n point with ⟨m, hm, hnext⟩ | ⟨hspace, -⟩ | hnext
    · rw [Numeral.next?_point] at hm
      split at hm
      · rw [hnext, ← Option.some.inj hm]
        exact .number rfl
      · cases hm
    · cases hspace
    · rw [hnext]
      exact .refused

theorem Pointed.next_point {r : Reading} (h : r.Pointed) : r.next point = refuse := by
  cases h with
  | refused | finished v => rfl
  | @number n hn =>
    rcases next_number n point with ⟨m, hm, -⟩ | ⟨hspace, -⟩ | hnext
    · rw [Numeral.next?_point] at hm
      split at hm
      · rename_i hphase
        rcases hphase with hphase | hphase <;> rw [hphase] at hn <;> cases hn
      · cases hm
    · cases hspace
    · exact hnext

theorem Bare.foldl_next {r : Reading} (h : r.Bare) (t : Text) : (t.foldl Reading.next r).Bare := by
  induction t generalizing r with
  | nil => exact h
  | cons u t ih => exact ih (h.next u)

theorem Pointed.foldl_next {r : Reading} (h : r.Pointed) (t : Text) :
    (t.foldl Reading.next r).Pointed := by
  induction t generalizing r with
  | nil => exact h
  | cons u t ih => exact ih (h.next u)

theorem bare_begin {u : CodeUnit} (hspace : isSpace u = false) (hquote : u ≠ 0x22)
    (hbracket : u ≠ 0x5B) (hbrace : u ≠ 0x7B) : (next ⟨[], .value⟩ u).Bare := by
  simp only [next, hspace, Bool.false_eq_true, if_false, beginValue, hquote, hbracket, hbrace]
  split
  · exact .word _ (by decide)
  split
  · exact .word _ (by decide)
  split
  · exact .word _ (by decide)
  split
  · exact .number _
  split
  · exact .number _
  · exact .refused

end Reading

/-- Two dots are one too many for a text that is no string, array or object. -/
theorem parse?_eq_none_of_points {u : CodeUnit} (h : (Reading.next ⟨[], .value⟩ u).Bare)
    (a b c : Text) : parse? (u :: (a ++ point :: (b ++ point :: c))) = none := by
  have hfirst := ((h.foldl_next a).next_point).foldl_next b
  simp only [parse?, List.foldl_cons, List.foldl_append, hfirst.next_point]
  rw [foldl_next_refuse]
  rfl

end Json
end SealedEnvelope
