import SealedEnvelope.Json.Printer
import SealedEnvelope.Proofs.Json.Numeral
import SealedEnvelope.Proofs.Text.Parts
import SealedEnvelope.Proofs.Text.Utf8

/-!
# The text of a JSON value

The printer pushes onto a reversed text. `written` prints from left to right and `text_eq_written` says
that both give one text, so everything else is shown by recursion on the value.

Such a text survives transport: every surrogate in it has a partner, and there is no blank around it.
-/

namespace SealedEnvelope

open Text

namespace Json

/-- The units of a string between its quotes. -/
def escapedText : Text → Text
  | [] => []
  | [u] => escaped u
  | u :: v :: rest =>
    if isHighSurrogate u && isLowSurrogate v then u :: v :: escapedText rest
    else escaped u ++ escapedText (v :: rest)

def quoted (t : Text) : Text := 0x22 :: (escapedText t ++ [0x22])

def separator (first : Bool) : Text := if first then [] else [0x2C]

mutual

/-- The text of a value, from left to right. -/
def written : Json → Text
  | .null => "null"
  | .bool true => "true"
  | .bool false => "false"
  | .num d => numberText d
  | .str t => quoted t
  | .arr items => 0x5B :: (writtenItems items true ++ [0x5D])
  | .obj members => 0x7B :: (writtenMembers members true ++ [0x7D])

def writtenItems : List Json → (first : Bool) → Text
  | [], _ => []
  | v :: rest, first => separator first ++ (written v ++ writtenItems rest false)

def writtenMembers : List (Text × Json) → (first : Bool) → Text
  | [], _ => []
  | (key, v) :: rest, first =>
    separator first ++ (quoted key ++ 0x3A :: (written v ++ writtenMembers rest false))

end

/-! ### The printer writes that text -/

theorem escapedOnto_eq : ∀ t out, escapedOnto t out = (escapedText t).reverse ++ out
  | [], out => rfl
  | [u], out => List.reverseAux_eq
  | u :: v :: rest, out => by
    unfold escapedOnto escapedText
    split
    · rw [escapedOnto_eq rest, List.reverse_cons, List.reverse_cons, List.append_assoc,
        List.append_assoc]
      rfl
    · rw [escapedOnto_eq (v :: rest), List.reverseAux_eq, List.reverse_append, List.append_assoc]

theorem quotedOnto_eq (t out : Text) : quotedOnto t out = (quoted t).reverse ++ out := by
  unfold quotedOnto quoted
  rw [escapedOnto_eq, List.reverse_cons, List.reverse_append, List.append_assoc, List.append_assoc]
  rfl

theorem separator_reverse_append (first : Bool) (out : Text) :
    (separator first).reverse ++ out = if first then out else 0x2C :: out := by
  cases first <;> rfl

mutual

theorem textOnto_eq : ∀ v out, textOnto v out = (written v).reverse ++ out
  | .null, out => List.reverseAux_eq
  | .bool true, out => List.reverseAux_eq
  | .bool false, out => List.reverseAux_eq
  | .num d, out => List.reverseAux_eq
  | .str t, out => quotedOnto_eq t out
  | .arr items, out => by
    unfold textOnto written
    rw [itemsOnto_eq items, List.reverse_cons, List.reverse_append, List.append_assoc,
      List.append_assoc]
    rfl
  | .obj members, out => by
    unfold textOnto written
    rw [membersOnto_eq members, List.reverse_cons, List.reverse_append, List.append_assoc,
      List.append_assoc]
    rfl

theorem itemsOnto_eq : ∀ items first out,
    itemsOnto items first out = (writtenItems items first).reverse ++ out
  | [], first, out => rfl
  | v :: rest, first, out => by
    unfold itemsOnto writtenItems
    rw [itemsOnto_eq rest, textOnto_eq v, ← separator_reverse_append]
    simp only [List.reverse_append, List.append_assoc]

theorem membersOnto_eq : ∀ members first out,
    membersOnto members first out = (writtenMembers members first).reverse ++ out
  | [], first, out => rfl
  | (key, v) :: rest, first, out => by
    unfold membersOnto writtenMembers
    rw [membersOnto_eq rest, textOnto_eq v, quotedOnto_eq, ← separator_reverse_append]
    simp only [List.reverse_append, List.reverse_cons, List.append_assoc, List.cons_append,
      List.nil_append]

end

theorem text_eq_written (v : Json) : v.text = written v := by
  rw [text, textOnto_eq, List.append_nil, List.reverse_reverse]

/-! ### Values that come back as they are -/

mutual

/-- A value that JSON has a text for, with the members of its objects in the order in which they are
read. -/
def Settled : Json → Prop
  | .num d => d.isFinite = true ∧ d.IsBinary64 ∧ d.unsignedZero = d
  | .arr items => SettledItems items
  | .obj members => Members.ofWritten members = members ∧ SettledMembers members
  | _ => True

def SettledItems : List Json → Prop
  | [] => True
  | v :: rest => Settled v ∧ SettledItems rest

def SettledMembers : List (Text × Json) → Prop
  | [] => True
  | (_, v) :: rest => Settled v ∧ SettledMembers rest

end

/-! ### Every surrogate has a partner -/

theorem hexDigit_lt {n : Nat} (h : n < 16) : hexDigit n < 0xD800 := by
  revert n
  decide

theorem paired_codeEscape (u : CodeUnit) : Paired (codeEscape u) := by
  have hu : u.toNat < 0x10000 := u.toNat_lt
  apply paired_of_forall_lt
  intro w hw
  simp only [codeEscape, List.mem_cons, List.not_mem_nil, or_false] at hw
  rcases hw with rfl | rfl | rfl | rfl | rfl | rfl
  · decide
  · decide
  all_goals exact hexDigit_lt (by omega)

theorem paired_escaped (u : CodeUnit) : Paired (escaped u) := by
  unfold escaped
  split
  · rename_i hmark
    apply paired_of_forall_lt
    intro w hw
    rw [Bool.or_eq_true, beq_iff_eq, beq_iff_eq] at hmark
    rw [List.mem_cons, List.mem_singleton] at hw
    rcases hw with rfl | rfl
    · decide
    · rcases hmark with rfl | rfl <;> decide
  · repeat' split
    all_goals first
      | exact paired_of_all (by decide)
      | exact paired_codeEscape u
      | skip
    rename_i hplain
    rw [Bool.not_eq_true, Bool.or_eq_false_iff, Bool.or_eq_false_iff] at hplain
    exact .unit hplain.1.2 hplain.2 .nil

theorem paired_escapedText : ∀ t, Paired (escapedText t)
  | [] => .nil
  | [u] => paired_escaped u
  | u :: v :: rest => by
    unfold escapedText
    split
    · rename_i hpair
      rw [Bool.and_eq_true] at hpair
      exact .pair hpair.1 hpair.2 (paired_escapedText rest)
    · exact (paired_escaped u).append (paired_escapedText (v :: rest))

theorem paired_quoted (t : Text) : Paired (quoted t) :=
  .unit (by decide) (by decide) ((paired_escapedText t).append (paired_of_all (by decide)))

theorem paired_separator (first : Bool) : Paired (separator first) := by
  cases first
  · exact paired_of_all (by decide)
  · exact .nil

theorem paired_numberText {d : Double} (hfinite : d.isFinite = true) (hrep : d.IsBinary64) :
    Paired (numberText d) := by
  obtain ⟨-, -, hunits, -⟩ := foldl_next_numberText hfinite hrep
  apply paired_of_forall_lt
  intro u hu
  exact UInt16.lt_trans (hunits u hu).plain.1 (by decide)

mutual

theorem paired_written : ∀ v, Settled v → Paired (written v)
  | .null, _ => paired_of_all (by decide)
  | .bool true, _ => paired_of_all (by decide)
  | .bool false, _ => paired_of_all (by decide)
  | .num d, h => paired_numberText h.1 h.2.1
  | .str t, _ => paired_quoted t
  | .arr items, h =>
    .unit (by decide) (by decide)
      ((paired_writtenItems items true h).append (paired_of_all (by decide)))
  | .obj members, h =>
    .unit (by decide) (by decide)
      ((paired_writtenMembers members true h.2).append (paired_of_all (by decide)))

theorem paired_writtenItems : ∀ items first, SettledItems items → Paired (writtenItems items first)
  | [], _, _ => .nil
  | v :: rest, first, h =>
    (paired_separator first).append ((paired_written v h.1).append (paired_writtenItems rest false h.2))

theorem paired_writtenMembers : ∀ members first,
    SettledMembers members → Paired (writtenMembers members first)
  | [], _, _ => .nil
  | (key, v) :: rest, first, h =>
    (paired_separator first).append ((paired_quoted key).append
      (.unit (by decide) (by decide)
        ((paired_written v h.1).append (paired_writtenMembers rest false h.2))))

end

/-! ### No blank around the text -/

/-- The text begins with a unit that is neither blank nor the end of an array. -/
theorem head_written {v : Json} (h : Settled v) :
    ∃ u rest, written v = u :: rest ∧ isBlank u = false ∧ u ≠ 0x5D := by
  cases v with
  | null => exact ⟨_, _, rfl, by decide, by decide⟩
  | bool b => cases b <;> exact ⟨_, _, rfl, by decide, by decide⟩
  | num d =>
    obtain ⟨n, hvalue, hunits, hread⟩ := foldl_next_numberText h.1 h.2.1
    cases htext : numberText d with
    | nil =>
      have := hread []
      rw [htext] at this
      cases this
    | cons u rest =>
      have hu := (hunits u (htext ▸ List.mem_cons_self)).plain
      exact ⟨u, rest, htext, hu.2.1, hu.2.2.2.1⟩
  | str t => exact ⟨_, _, rfl, by decide, by decide⟩
  | arr items => exact ⟨_, _, rfl, by decide, by decide⟩
  | obj members => exact ⟨_, _, rfl, by decide, by decide⟩

theorem getLast?_written {v : Json} (h : Settled v) :
    ∀ u, (written v).getLast? = some u → isBlank u = false := by
  intro u hu
  cases v with
  | null => exact Option.some.inj hu ▸ by decide
  | bool b => cases b <;> exact Option.some.inj hu ▸ by decide
  | num d =>
    obtain ⟨-, -, hunits, -⟩ := foldl_next_numberText h.1 h.2.1
    exact (hunits u (List.mem_of_getLast? hu)).plain.2.1
  | str t =>
    unfold written quoted at hu
    rw [← List.cons_append, List.getLast?_concat] at hu
    exact Option.some.inj hu ▸ by decide
  | arr items =>
    unfold written at hu
    rw [← List.cons_append, List.getLast?_concat] at hu
    exact Option.some.inj hu ▸ by decide
  | obj members =>
    unfold written at hu
    rw [← List.cons_append, List.getLast?_concat] at hu
    exact Option.some.inj hu ▸ by decide

theorem trim_written {v : Json} (h : Settled v) : (written v).trim = written v := by
  refine trim_eq_self ?_ (getLast?_written h)
  obtain ⟨u, rest, htext, hblank, -⟩ := head_written h
  intro w hw
  rw [htext] at hw
  exact Option.some.inj hw ▸ hblank

theorem head?_text_ne_mark {v : Json} (h : Settled v) : v.text.head? ≠ some 0xFEFF := by
  obtain ⟨u, rest, htext, hblank, -⟩ := head_written h
  rw [text_eq_written, htext]
  intro hmark
  rw [Option.some.inj hmark] at hblank
  exact absurd hblank (by decide)

theorem decode?_utf8_text {v : Json} (h : Settled v) : Utf8.decode? v.text.utf8 = some v.text := by
  have hpaired := paired_written v h
  rw [← text_eq_written] at hpaired
  exact Utf8.decode?_utf8 hpaired (head?_text_ne_mark h)

theorem decodeLenient_utf8_text {v : Json} (h : Settled v) :
    Utf8.decodeLenient v.text.utf8 = v.text := by
  have hpaired := paired_written v h
  rw [← text_eq_written] at hpaired
  exact Utf8.decodeLenient_utf8 hpaired (head?_text_ne_mark h)

end Json
end SealedEnvelope
