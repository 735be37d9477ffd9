import Mathlib.Algebra.Group.Nat.Defs
import SealedEnvelope.Proofs.Codec.UnusedBits
import SealedEnvelope.Proofs.Text.Surrogates

/-!
# Texts for bytes

Every text over the alphabet is read unless it leaves a lone digit, and it gives as many bytes as its bits
fill. Its bytes are written with the bits cleared that fill none, so texts stand for the same bytes if
they are of one length and differ in nothing but those bits of the last digit.
-/

namespace SealedEnvelope

namespace Base64url

/-- The digits in the order of their values. -/
def alphabet : Text := "ABCDEFGHIJKLMNOPQRSTUVWXYZabcdefghijklmnopqrstuvwxyz0123456789-_"

theorem alphabet_eq : alphabet = (List.range 64).map digit := by decide

theorem mem_alphabet {u : CodeUnit} : u ∈ alphabet ↔ ∃ n < 64, digit n = u := by
  rw [alphabet_eq, List.mem_map]
  simp only [List.mem_range]

/-! ### Which texts are read -/

theorem exists_values {t : Text} (h : ∀ u ∈ t, u ∈ alphabet) :
    ∃ values : List Nat, (∀ n ∈ values, n < 64) ∧ values.map digit = t := by
  induction t with
  | nil => exact ⟨[], fun n hn => absurd hn List.not_mem_nil, rfl⟩
  | cons u t ih =>
    obtain ⟨hu, ht⟩ := List.forall_mem_cons.mp h
    obtain ⟨n, hn, rfl⟩ := mem_alphabet.mp hu
    obtain ⟨values, hvalues, rfl⟩ := ih ht
    exact ⟨n :: values, List.forall_mem_cons.mpr ⟨hn, hvalues⟩, rfl⟩

theorem exists_decode?_iff {t : Text} :
    (∃ b, decode? t = some b) ↔ (∀ u ∈ t, u ∈ alphabet) ∧ t.length % 4 ≠ 1 := by
  constructor
  · rintro ⟨b, h⟩
    obtain ⟨values, hlt, rfl, hlength, -⟩ := decode?_eq_some.mp h
    rw [List.length_map]
    exact ⟨fun u hu => mem_alphabet.mpr (exists_digit_of_decode? h hu), hlength⟩
  · rintro ⟨halphabet, hlength⟩
    obtain ⟨values, hlt, rfl⟩ := exists_values halphabet
    rw [List.length_map] at hlength
    exact ⟨_, decode?_map_digit hlt hlength⟩

theorem decode_eq_ok {t : Text} {b : Bytes} : decode t = .ok b ↔ decode? t = some b := by
  unfold decode
  cases decode? t with
  | none => simp
  | some b' => simp

theorem decode_eq_error {t : Text} {e : Error} (h : decode t = .error e) : e = .notBase64url := by
  unfold decode at h
  split at h
  · cases h
  · exact (Except.error.inj h).symm

/-! ### How many bytes, and where the unused bits are -/

theorem length_decodeOnto : ∀ values : List Nat,
    (decodeOnto values []).length = 3 * values.length / 4
  | a :: b :: c :: d :: rest => by
    rw [decodeOnto, decodeOnto_eq]
    simp only [List.length_append, List.length_reverse, List.length_cons, List.length_nil,
      length_decodeOnto rest]
    omega
  | [_, _, _] => by simp [decodeOnto]
  | [_, _] => by simp [decodeOnto]
  | [_] => by simp [decodeOnto]
  | [] => rfl

/-- How many bits of the last digit belong to no byte. -/
def unusedBits (t : Text) : Nat := 6 * t.length % 8

/-- The bits of the last digit that belong to a byte. -/
def usedPart (t : Text) : Option Nat :=
  t.getLast?.map fun u => (value? u).getD 0 / 2 ^ unusedBits t

theorem cleared_eq : ∀ t : Text, (∀ u ∈ t, u ∈ alphabet) → t.length % 4 ≠ 1 →
    cleared t = t.dropLast ++ (usedPart t).toList.map fun n => digit (n * 2 ^ unusedBits t)
  | [], _, _ => rfl
  | [_], _, hlength => absurd rfl hlength
  | [_, _], _, _ => by simp [cleared, roundedDown, usedPart, unusedBits]
  | [_, _, _], _, _ => by simp [cleared, roundedDown, usedPart, unusedBits]
  | [a, b, c, d], halphabet, _ => by
    obtain ⟨n, hn, hd⟩ := mem_alphabet.mp (halphabet d (by simp))
    simp [cleared, usedPart, unusedBits, ← hd, value?_digit n hn]
  | a :: b :: c :: d :: u :: rest, halphabet, hlength => by
    have hlength' : (u :: rest).length % 4 ≠ 1 := by
      simp only [List.length_cons] at hlength ⊢
      omega
    have hbits : unusedBits (a :: b :: c :: d :: u :: rest) = unusedBits (u :: rest) := by
      simp only [unusedBits, List.length_cons]
      omega
    have hused : usedPart (a :: b :: c :: d :: u :: rest) = usedPart (u :: rest) := by
      simp only [usedPart, hbits, List.getLast?_cons_cons]
    have hrest := cleared_eq (u :: rest) (fun w hw => halphabet w (by simp [hw])) hlength'
    rw [cleared, hrest, hused, hbits]
    rfl

/-- Two texts are of one length and differ in nothing but the unused bits of the last digit. -/
structure SameButUnused (s t : Text) : Prop where
  length : s.length = t.length
  front : s.dropLast = t.dropLast
  used : usedPart s = usedPart t

theorem digit_inj {m n : Nat} (hm : m < 64) (hn : n < 64) (h : digit m = digit n) : m = n := by
  have hvalue := value?_digit m hm
  rw [h, value?_digit n hn] at hvalue
  exact (Option.some.inj hvalue).symm

theorem usedPart_lt {t : Text} {n : Nat} (h : usedPart t = some n) : n * 2 ^ unusedBits t < 64 := by
  obtain ⟨u, -, rfl⟩ := Option.map_eq_some_iff.mp h
  refine Nat.lt_of_le_of_lt (Nat.div_mul_le_self _ _) ?_
  cases hvalue : value? u with
  | none => decide
  | some v => exact (digit_of_value? u v hvalue).1

theorem usedPart_eq_of_digits {s t : Text} (hbits : unusedBits s = unusedBits t)
    (h : (usedPart s).map (fun n => digit (n * 2 ^ unusedBits s)) =
      (usedPart t).map fun n => digit (n * 2 ^ unusedBits t)) : usedPart s = usedPart t := by
  cases hm : usedPart s with
  | none =>
    rw [hm] at h
    exact (Option.map_eq_none_iff.mp h.symm).symm
  | some m =>
    rw [hm] at h
    obtain ⟨n, hn, hdigits⟩ := Option.map_eq_some_iff.mp h.symm
    have hvalues := digit_inj (usedPart_lt hn) (usedPart_lt hm) hdigits
    rw [hbits] at hvalues
    rw [hn, Nat.eq_of_mul_eq_mul_right (Nat.two_pow_pos _) hvalues]

theorem length_cleared : ∀ t : Text, (cleared t).length = t.length
  | _ :: _ :: _ :: _ :: rest => by simp [cleared, length_cleared rest]
  | [_, _, _] => rfl
  | [_, _] => rfl
  | [_] => rfl
  | [] => rfl

theorem cleared_eq_cleared_iff {s t : Text} (hs : ∀ u ∈ s, u ∈ alphabet) (ht : ∀ u ∈ t, u ∈ alphabet)
    (hslength : s.length % 4 ≠ 1) (htlength : t.length % 4 ≠ 1) :
    cleared s = cleared t ↔ SameButUnused s t := by
  constructor
  · intro h
    have hlength : s.length = t.length := by rw [← length_cleared s, h, length_cleared]
    have hbits : unusedBits s = unusedBits t := by rw [unusedBits, unusedBits, hlength]
    have hfront : s.dropLast.length = t.dropLast.length := by
      rw [List.length_dropLast, List.length_dropLast, hlength]
    rw [cleared_eq s hs hslength, cleared_eq t ht htlength] at h
    obtain ⟨hsame, hlast⟩ := List.append_inj h hfront
    have hdigits := congrArg List.head? hlast
    rw [← Option.toList_map, ← Option.toList_map, Option.head?_toList, Option.head?_toList] at hdigits
    exact ⟨hlength, hsame, usedPart_eq_of_digits hbits hdigits⟩
  · intro h
    have hbits : unusedBits s = unusedBits t := by rw [unusedBits, unusedBits, h.length]
    rw [cleared_eq s hs hslength, cleared_eq t ht htlength, h.front, h.used, hbits]

/-- Two texts stand for the same bytes if they differ in nothing but the unused bits. -/
theorem decode?_eq_decode?_iff {s t : Text} {b c : Bytes} (hs : decode? s = some b)
    (ht : decode? t = some c) : b = c ↔ SameButUnused s t := by
  obtain ⟨hsdigits, hslength⟩ := exists_decode?_iff.mp ⟨b, hs⟩
  obtain ⟨htdigits, htlength⟩ := exists_decode?_iff.mp ⟨c, ht⟩
  rw [← cleared_eq_cleared_iff hsdigits htdigits hslength htlength]
  constructor
  · rintro rfl
    rw [← encode_of_decode? hs, ← encode_of_decode? ht]
  · intro h
    have hread := decode?_cleared hs
    rw [h, decode?_cleared ht] at hread
    exact (Option.some.inj hread).symm

/-- Bytes come back from their text, which is over the alphabet. A text is read exactly if it is over the
alphabet and leaves no lone digit, and otherwise the format is wrong. What is read has three bytes for
four digits, and is written as the same text with the unused bits of the last digit cleared. So two texts
stand for the same bytes exactly if they differ in nothing but these bits. -/
theorem spellings_of_bytes :
    (∀ b : Bytes, decode (encode b) = .ok b ∧ ∀ u ∈ encode b, u ∈ alphabet) ∧
    (∀ t : Text, (∃ b, decode t = .ok b) ↔ (∀ u ∈ t, u ∈ alphabet) ∧ t.length % 4 ≠ 1) ∧
    (∀ t e, decode t = .error e → e.code? = some .invalidFormat) ∧
    (∀ t b, decode t = .ok b → b.length = 3 * t.length / 4 ∧
      encode b = t.dropLast ++ (usedPart t).toList.map fun n => digit (n * 2 ^ unusedBits t)) ∧
    ∀ s t b c, decode s = .ok b → decode t = .ok c → (b = c ↔ SameButUnused s t) := by
  simp only [decode_eq_ok]
  refine ⟨?_, fun t => exists_decode?_iff, ?_, ?_, fun s t b c => decode?_eq_decode?_iff⟩
  · intro b
    refine ⟨decode?_encode b, fun u hu => mem_alphabet.mpr (exists_digit_of_mem_encode hu)⟩
  · intro t e h
    rw [decode_eq_error h]
    rfl
  · intro t b h
    obtain ⟨hdigits, hlength⟩ := exists_decode?_iff.mp ⟨b, h⟩
    refine ⟨?_, by rw [encode_of_decode? h, cleared_eq t hdigits hlength]⟩
    obtain ⟨values, -, rfl, -, rfl⟩ := decode?_eq_some.mp h
    rw [length_decodeOnto, List.length_map]

/-- One byte with its unused bits set and with them cleared, and a lone digit. -/
theorem spellings_of_bytes_padded :
    decode "-_" = .ok [0xFB] ∧ decode "-w" = .ok [0xFB] ∧ SameButUnused "-_" "-w" ∧
      encode [0xFB] = "-w" ∧ ¬SameButUnused "-_" "-g" ∧
      ∃ e, decode "-" = .error e ∧ e.code? = some .invalidFormat := by
  obtain ⟨-, -, hfails, hwritten, hsame⟩ := spellings_of_bytes
  have hset : decode "-_" = .ok [0xFB] := decode_eq_ok.mpr (by decide)
  have hcleared : decode "-w" = .ok [0xFB] := decode_eq_ok.mpr (by decide)
  have hother : decode "-g" = .ok [0xFA] := decode_eq_ok.mpr (by decide)
  have hlone : decode "-" = .error .notBase64url := rfl
  refine ⟨hset, hcleared, (hsame _ _ _ _ hset hcleared).mp rfl, ?_, ?_, _, hlone, hfails _ _ hlone⟩
  · rw [(hwritten _ _ hset).2]
    decide
  · rw [← hsame _ _ _ _ hset hother]
    decide

/-! ### Texts that are encoded -/

theorem encodeText_eq_encodeText_iff {s t : Text} :
    encodeText s = encodeText t ↔ s.repaired = t.repaired := by
  rw [← Utf8.utf8_eq_utf8_iff]
  constructor
  · intro h
    exact Option.some.inj ((decode?_encodeText s).symm.trans (h ▸ decode?_encodeText t))
  · exact congrArg encode

theorem decodeText_encodeText_eq (t : Text) :
    decodeText (encodeText t) = .ok t.repaired.unmarked :=
  decodeText_eq_ok.mpr ⟨_, decode?_encodeText t, Utf8.decodeLenient_utf8_eq t⟩

theorem unmarked_of_head? {t : Text} (h : t.head? ≠ some 0xFEFF) : t.unmarked = t := by
  cases t with
  | nil => rfl
  | cons u t =>
    rw [Text.unmarked, if_neg]
    rintro rfl
    exact h rfl

/-- A text that is encoded comes back with U+FFFD in the place of each lone surrogate and then without
one byte order mark in front. So it comes back as it was if its surrogates are paired and it does not
begin with the mark. The encoding tells apart what is repaired differently, so among texts whose
surrogates are paired it tells all apart. -/
theorem decodeText_encodeText (s t : Text) :
    decodeText (encodeText t) = .ok t.repaired.unmarked ∧
    (∀ i, t.repaired[i]? = if t.isLone i then some 0xFFFD else t[i]?) ∧
    (t.Paired ↔ ∀ i, t.isLone i = false) ∧
    (t.Paired → t.head? ≠ some 0xFEFF → decodeText (encodeText t) = .ok t) ∧
    (encodeText s = encodeText t ↔ s.repaired = t.repaired) ∧
    (s.Paired → t.Paired → (encodeText s = encodeText t ↔ s = t)) := by
  refine ⟨decodeText_encodeText_eq t, Text.getElem?_repaired t, Text.paired_iff, ?_,
    encodeText_eq_encodeText_iff, ?_⟩
  · intro hpaired hmark
    rw [decodeText_encodeText_eq, Text.repaired_of_paired hpaired, unmarked_of_head? hmark]
  · intro hs ht
    rw [encodeText_eq_encodeText_iff, Text.repaired_of_paired hs, Text.repaired_of_paired ht]

/-- Lone surrogates on both sides of a pair, a mark behind a mark, and a pair behind a letter. -/
theorem decodeText_encodeText_samples :
    decodeText (encodeText [0xD800, 0xD83D, 0xDE00, 0xDC00]) =
        .ok [0xFFFD, 0xD83D, 0xDE00, 0xFFFD] ∧
      decodeText (encodeText [0xFEFF, 0xFEFF]) = .ok [0xFEFF] ∧
      decodeText (encodeText [0xE9, 0xD83D, 0xDE00]) = .ok [0xE9, 0xD83D, 0xDE00] ∧
      encodeText [0xE9, 0xD83D, 0xDE00] ≠ encodeText [0xFEFF] := by
  have hletter : Text.Paired [0xE9, 0xD83D, 0xDE00] := .unit rfl rfl (.pair rfl rfl .nil)
  have hmark : Text.Paired [0xFEFF] := .unit rfl rfl .nil
  obtain ⟨hlone, -⟩ := decodeText_encodeText [] [0xD800, 0xD83D, 0xDE00, 0xDC00]
  obtain ⟨hmarks, -⟩ := decodeText_encodeText [] [0xFEFF, 0xFEFF]
  obtain ⟨-, -, -, hsame, -⟩ := decodeText_encodeText [] [0xE9, 0xD83D, 0xDE00]
  obtain ⟨-, -, -, -, -, hdiffer⟩ := decodeText_encodeText [0xE9, 0xD83D, 0xDE00] [0xFEFF]
  refine ⟨hlone, hmarks, hsame hletter (by decide), ?_⟩
  rw [ne_eq, hdiffer hletter hmark]
  decide

end Base64url
end SealedEnvelope
