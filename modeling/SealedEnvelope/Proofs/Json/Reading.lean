import SealedEnvelope.Proofs.Json.Printing

/-!
# The text of a JSON value reads back

The main fact is `parse?_text`: a settled value is what its text is read as. The reader goes from left
to right with the open arrays and objects on its stack, so for each part it is shown what the part does
to a reader that stands in front of it.

Behind a number the reader does not yet know that the number is over. `Reads` says that it will know
with the next unit.
-/

namespace SealedEnvelope

open Text

namespace Json

/-! ### Strings -/

section Strings

variable (stack : List Frame) (isKey : Bool) (done : Text)

theorem hexDigit?_hexDigit {n : Nat} (h : n < 16) : hexDigit? (hexDigit n) = some n := by
  revert n
  decide

theorem next_code {n : Nat} (h : n < 16) (digits value : Nat) :
    Reading.next ⟨stack, .code isKey done digits value⟩ (hexDigit n) =
      if digits < 3 then ⟨stack, .code isKey done (digits + 1) (value * 16 + n)⟩
      else ⟨stack, .string isKey (UInt16.ofNat (value * 16 + n) :: done)⟩ := by
  unfold Reading.next
  simp only [hexDigit?_hexDigit h]

theorem foldl_next_codeEscape (u : CodeUnit) :
    (codeEscape u).foldl Reading.next ⟨stack, .string isKey done⟩ =
      ⟨stack, .string isKey (u :: done)⟩ := by
  have hu : u.toNat < 0x10000 := u.toNat_lt
  have hvalue : (((0 * 16 + u.toNat / 0x1000) * 16 + u.toNat / 0x100 % 0x10) * 16
      + u.toNat / 0x10 % 0x10) * 16 + u.toNat % 0x10 = u.toNat := by omega
  have hopen : Reading.next (Reading.next ⟨stack, .string isKey done⟩ 0x5C) 0x75
      = ⟨stack, .code isKey done 0 0⟩ := rfl
  unfold codeEscape
  simp only [List.foldl_cons, List.foldl_nil]
  rw [hopen, next_code stack isKey done (by omega), if_pos (by decide),
    next_code stack isKey done (by omega), if_pos (by decide),
    next_code stack isKey done (by omega), if_pos (by decide),
    next_code stack isKey done (by omega), if_neg (by decide), hvalue, UInt16.ofNat_toNat]

theorem next_string {u : CodeUnit} (hquote : u ≠ 0x22) (hescape : u ≠ 0x5C) (hcontrol : ¬u < 0x20) :
    Reading.next ⟨stack, .string isKey done⟩ u = ⟨stack, .string isKey (u :: done)⟩ := by
  unfold Reading.next
  simp only [hquote, hescape, hcontrol, if_false]

theorem foldl_next_escaped (u : CodeUnit) :
    (escaped u).foldl Reading.next ⟨stack, .string isKey done⟩ =
      ⟨stack, .string isKey (u :: done)⟩ := by
  unfold escaped
  split
  · rename_i hmark
    rw [Bool.or_eq_true, beq_iff_eq, beq_iff_eq] at hmark
    rcases hmark with rfl | rfl <;> rfl
  · rename_i hmark
    rw [Bool.or_eq_true, beq_iff_eq, beq_iff_eq, not_or] at hmark
    -- The five controls that have a letter, then those that have a code.
    iterate 5
      split
      · rename_i hcontrol
        rw [beq_iff_eq.mp hcontrol]
        rfl
    split
    · exact foldl_next_codeEscape stack isKey done u
    · rename_i hplain
      rw [Bool.not_eq_true, Bool.or_eq_false_iff, Bool.or_eq_false_iff,
        decide_eq_false_iff_not] at hplain
      exact next_string stack isKey done hmark.1 hmark.2 hplain.1.1

theorem next_surrogate {u : CodeUnit} (h : 0xD800 ≤ u.toNat) :
    Reading.next ⟨stack, .string isKey done⟩ u = ⟨stack, .string isKey (u :: done)⟩ := by
  refine next_string stack isKey done ?_ ?_ ?_
  · rintro rfl
    exact absurd h (by decide)
  · rintro rfl
    exact absurd h (by decide)
  · rw [UInt16.lt_iff_toNat_lt]
    change ¬u.toNat < 0x20
    omega

theorem foldl_next_escapedText : ∀ (t done : Text),
    (escapedText t).foldl Reading.next ⟨stack, .string isKey done⟩ =
      ⟨stack, .string isKey (t.reverse ++ done)⟩
  | [], done => rfl
  | [u], done => foldl_next_escaped stack isKey done u
  | u :: v :: rest, done => by
    unfold escapedText
    split
    · rename_i hpair
      rw [Bool.and_eq_true, isHighSurrogate_iff, isLowSurrogate_iff] at hpair
      rw [List.foldl_cons, List.foldl_cons, next_surrogate stack isKey done hpair.1.1,
        next_surrogate stack isKey _ (by omega), foldl_next_escapedText rest, List.reverse_cons,
        List.reverse_cons, List.append_assoc, List.append_assoc]
      rfl
    · rw [List.foldl_append, foldl_next_escaped, foldl_next_escapedText (v :: rest),
        @List.reverse_cons _ _ (v :: rest), List.append_assoc]
      rfl

theorem foldl_next_string (t : Text) :
    (escapedText t ++ [0x22]).foldl Reading.next ⟨stack, .string isKey []⟩ =
      Reading.completeString stack isKey t := by
  rw [List.foldl_append, foldl_next_escapedText, List.append_nil]
  change Reading.completeString stack isKey t.reverse.reverse = _
  rw [List.reverse_reverse]

end Strings

/-! ### Values -/

/-- The reader has read a value, or has read a number and will know so with the next unit. -/
inductive Reads (v : Json) (stack : List Frame) : Reading → Prop
  | complete : Reads v stack (Reading.complete v stack)
  | number {n : Numeral} {d : Double} (hv : v = .num d) (hvalue : n.value? = some d) :
      Reads v stack ⟨stack, .number n⟩

theorem Reads.next {v : Json} {stack : List Frame} {r : Reading} (h : Reads v stack r)
    {u : CodeUnit} (hu : ¬Numeral.IsUnit u) :
    r.next u = Reading.afterValue (Reading.complete v stack) u := by
  cases h with
  | complete =>
    cases stack with
    | nil => rfl
    | cons frame rest => cases frame <;> rfl
  | @number n d hv hvalue =>
    have hend : n.next? u = none := by
      rw [Option.eq_none_iff_forall_ne_some]
      exact fun m hm => hu (Numeral.isUnit_of_next? hm)
    unfold Reading.next
    simp only [hend, hvalue, hv]

theorem Reads.result? {v : Json} {r : Reading} (h : Reads v [] r) : r.result? = some v := by
  cases h with
  | complete => rfl
  | number hv hvalue =>
    unfold Reading.result?
    simp only [hvalue, hv, Option.map_some]

theorem comma_not_unit : ¬Numeral.IsUnit 0x2C := fun h => h.plain.2.2.1 rfl

theorem bracket_not_unit : ¬Numeral.IsUnit 0x5D := fun h => h.plain.2.2.2.1 rfl

theorem brace_not_unit : ¬Numeral.IsUnit 0x7D := fun h => h.plain.2.2.2.2 rfl

theorem reads_number {d : Double} (h : Settled (.num d)) (stack : List Frame) :
    Reads (.num d) stack ((numberText d).foldl Reading.next ⟨stack, .value⟩) := by
  obtain ⟨hfinite, hrep, hzero⟩ := h
  obtain ⟨n, hvalue, -, hread⟩ := foldl_next_numberText hfinite hrep
  rw [hread, hzero] at *
  exact .number rfl hvalue

theorem foldl_next_firstItem {v : Json} (h : Settled v) (stack : List Frame) :
    (written v).foldl Reading.next ⟨stack, .firstItem⟩ =
      (written v).foldl Reading.next ⟨stack, .value⟩ := by
  obtain ⟨u, rest, htext, hblank, hbracket⟩ := head_written h
  have hspace : Reading.isSpace u = false := by
    by_contra hspace
    rw [Bool.not_eq_false] at hspace
    unfold Reading.isSpace at hspace
    simp only [Bool.or_eq_true, beq_iff_eq] at hspace
    rcases hspace with ((rfl | rfl) | rfl) | rfl <;> exact absurd hblank (by decide)
  have hfirst : Reading.next ⟨stack, .firstItem⟩ u = Reading.next ⟨stack, .value⟩ u := by
    unfold Reading.next
    simp only [hspace, hbracket, Bool.false_eq_true, if_false]
  rw [htext, List.foldl_cons, List.foldl_cons, hfirst]

theorem foldl_next_key {mode : Mode} (hmode : mode = .firstKey ∨ mode = .key)
    (done : List (Text × Json)) (old key rest : Text) (stack : List Frame) :
    (quoted key ++ 0x3A :: rest).foldl Reading.next ⟨.members done old :: stack, mode⟩ =
      rest.foldl Reading.next ⟨.members done key :: stack, .value⟩ := by
  have hopen : Reading.next ⟨.members done old :: stack, mode⟩ 0x22 =
      ⟨.members done old :: stack, .string true []⟩ := by
    rcases hmode with rfl | rfl <;> rfl
  unfold quoted
  rw [List.cons_append, List.foldl_cons, hopen, List.foldl_append, foldl_next_string]
  rfl

mutual

theorem reads_written : ∀ v, Settled v → ∀ stack,
    Reads v stack ((written v).foldl Reading.next ⟨stack, .value⟩)
  | .null, _, stack => .complete
  | .bool true, _, stack => .complete
  | .bool false, _, stack => .complete
  | .num d, h, stack => reads_number h stack
  | .str t, _, stack => by
    unfold written quoted
    rw [List.foldl_cons]
    change Reads _ _ ((escapedText t ++ [0x22]).foldl Reading.next ⟨stack, .string false []⟩)
    rw [foldl_next_string]
    exact .complete
  | .arr [], _, stack => .complete
  | .arr (v :: rest), h, stack => by
    unfold written writtenItems
    rw [List.foldl_cons]
    change Reads _ _ (((written v ++ writtenItems rest false) ++ [0x5D]).foldl Reading.next
      ⟨.items [] :: stack, .firstItem⟩)
    rw [List.append_assoc, List.foldl_append, foldl_next_firstItem h.1,
      closes_items rest h.2 v [] stack (reads_written v h.1 _)]
    exact .complete
  | .obj [], h, stack => by
    change Reads _ _ (Reading.complete (.obj (Members.ofWritten [])) stack)
    rw [h.1]
    exact .complete
  | .obj ((key, v) :: rest), h, stack => by
    unfold written writtenMembers
    rw [List.foldl_cons]
    change Reads _ _ (((quoted key ++ 0x3A :: (written v ++ writtenMembers rest false)) ++
      [0x7D]).foldl Reading.next ⟨.members [] [] :: stack, .firstKey⟩)
    rw [List.append_assoc, List.cons_append, foldl_next_key (Or.inl rfl), List.append_assoc,
      List.foldl_append, closes_members rest h.2.2 v [] key stack (reads_written v h.2.1 _)]
    change Reads _ _ (Reading.complete (.obj (Members.ofWritten ((key, v) :: rest))) stack)
    rw [h.1]
    exact .complete

/-- What follows an item is the rest of its array. -/
theorem closes_items : ∀ rest, SettledItems rest → ∀ v done stack {r},
    Reads v (.items done :: stack) r →
      (writtenItems rest false ++ [0x5D]).foldl Reading.next r =
        Reading.complete (.arr (done.reverse ++ v :: rest)) stack
  | [], _, v, done, stack, r, hr => by
    change r.next 0x5D = _
    rw [hr.next bracket_not_unit]
    change Reading.complete (.arr (v :: done).reverse) stack = _
    rw [List.reverse_cons]
  | w :: rest, h, v, done, stack, r, hr => by
    unfold writtenItems
    change ((written w ++ writtenItems rest false) ++ [0x5D]).foldl Reading.next (r.next 0x2C) = _
    rw [hr.next comma_not_unit, List.append_assoc, List.foldl_append]
    change (writtenItems rest false ++ [0x5D]).foldl Reading.next
      ((written w).foldl Reading.next ⟨.items (v :: done) :: stack, .value⟩) = _
    rw [closes_items rest h.2 w (v :: done) stack (reads_written w h.1 _), List.reverse_cons,
      List.append_assoc]
    rfl

/-- What follows a member is the rest of its object. -/
theorem closes_members : ∀ rest, SettledMembers rest → ∀ v done key stack {r},
    Reads v (.members done key :: stack) r →
      (writtenMembers rest false ++ [0x7D]).foldl Reading.next r =
        Reading.complete (.obj (Members.ofWritten (done.reverse ++ (key, v) :: rest))) stack
  | [], _, v, done, key, stack, r, hr => by
    change r.next 0x7D = _
    rw [hr.next brace_not_unit]
    change Reading.complete (.obj (Members.ofWritten ((key, v) :: done).reverse)) stack = _
    rw [List.reverse_cons]
  | (next, w) :: rest, h, v, done, key, stack, r, hr => by
    unfold writtenMembers
    change ((quoted next ++ 0x3A :: (written w ++ writtenMembers rest false)) ++ [0x7D]).foldl
      Reading.next (r.next 0x2C) = _
    rw [hr.next comma_not_unit, List.append_assoc, List.cons_append]
    change (quoted next ++ 0x3A :: ((written w ++ writtenMembers rest false) ++ [0x7D])).foldl
      Reading.next ⟨.members ((key, v) :: done) [] :: stack, .key⟩ = _
    rw [foldl_next_key (Or.inr rfl), List.append_assoc, List.foldl_append,
      closes_members rest h.2 w ((key, v) :: done) next stack (reads_written w h.1 _),
      List.reverse_cons, List.append_assoc]
    rfl

end

/-- A settled value is what its text is read as. -/
theorem parse?_text {v : Json} (h : Settled v) : parse? v.text = some v := by
  rw [text_eq_written]
  exact (reads_written v h []).result?

theorem parse?_trim_text {v : Json} (h : Settled v) : parse? v.text.trim = some v := by
  rw [text_eq_written, trim_written h, ← text_eq_written, parse?_text h]

theorem foldl_next_refuse (t : Text) : t.foldl Reading.next Reading.refuse = Reading.refuse := by
  induction t with
  | nil => rfl
  | cons u t ih => exact ih

theorem parse?_eq_none {u : CodeUnit} (h : Reading.next ⟨[], .value⟩ u = Reading.refuse)
    (rest : Text) : parse? (u :: rest) = none := by
  unfold parse?
  rw [List.foldl_cons, h, foldl_next_refuse]
  rfl

end Json
end SealedEnvelope
