import SealedEnvelope.Cipher.Aes
import SealedEnvelope.Proofs.Bytes

/-!
# AES decrypts what it has encrypted

Every step of a round has an inverse. The substitution is undone byte by byte, the rotation of the rows
place by place, and mixing columns because both mixings are linear over the field: what one does with a
byte the other undoes, and what it does with the other three bytes of the column cancels.

The main fact is `inverts_cipher`, for a key of 32 bytes and blocks of 16.
-/

namespace SealedEnvelope

/-- The block cipher maps blocks of 16 bytes to such blocks, and back. -/
def BlockCipher.Inverts (c : BlockCipher) : Prop :=
  ∀ block : Bytes, block.length = 16 →
    (c.encrypt block).length = 16 ∧ c.decrypt (c.encrypt block) = block

namespace Aes

theorem forall_byte {p : UInt8 → Prop} (h : ∀ n < 256, p (UInt8.ofNat n)) (b : UInt8) : p b := by
  have hb := h b.toNat b.toNat_lt
  rwa [UInt8.ofNat_toNat] at hb

/-- Each entry of the one table names the place in the other that holds its own. -/
theorem inverse_places :
    substitution.toList.map (fun b => inverseSubstitution.toList[b.toNat]?) =
      (List.range 256).map fun n => some (UInt8.ofNat n) := by
  decide +kernel

theorem unsubstitute_substitute (b : UInt8) : unsubstitute (substitute b) = b := by
  have hplace := congrArg (·[b.toNat]?) inverse_places
  simp only [List.getElem?_map, List.getElem?_range b.toNat_lt, Option.map_some,
    UInt8.ofNat_toNat] at hplace
  obtain ⟨entry, hentry, hinverse⟩ := Option.map_eq_some_iff.mp hplace
  rw [Array.getElem?_toList] at hentry hinverse
  rw [unsubstitute, substitute, Array.getD_eq_getD_getElem?, Array.getD_eq_getD_getElem?, hentry,
    Option.getD_some, hinverse, Option.getD_some]

theorem map_unsubstitute_substitute (s : Bytes) : (s.map substitute).map unsubstitute = s := by
  induction s with
  | nil => rfl
  | cons b s ih => rw [List.map_cons, List.map_cons, unsubstitute_substitute, ih]

theorem unshiftRows_shiftRows {s : Bytes} (h : s.length = 16) : unshiftRows (shiftRows s) = s := by
  match s, h with
  | [_, _, _, _, _, _, _, _, _, _, _, _, _, _, _, _], _ => rfl

theorem length_shiftRows (s : Bytes) : (shiftRows s).length = 16 := rfl

/-! ### Mixing columns -/

theorem xor_and (a b mask : UInt8) : (a ^^^ b) &&& mask = (a &&& mask) ^^^ (b &&& mask) := by
  refine UInt8.toBitVec_inj.mp ?_
  ext i
  simp only [UInt8.toBitVec_and, UInt8.toBitVec_xor, BitVec.getElem_and, BitVec.getElem_xor,
    Bool.and_xor_distrib_right]

theorem double_xor (a b : UInt8) : double (a ^^^ b) = double a ^^^ double b := by
  have hbit : ∀ b : UInt8, b &&& 0x80 = 0 ∨ b &&& 0x80 = 0x80 := by
    refine forall_byte ?_
    decide +kernel
  have hcarry : ¬(0x80 : UInt8) = 0 := by decide
  unfold double
  rw [UInt8.shiftLeft_xor, xor_and]
  rcases hbit a with ha | ha <;> rcases hbit b with hb | hb <;> rw [ha, hb]
  · rw [UInt8.xor_self, if_pos rfl, UInt8.xor_zero, UInt8.xor_zero, UInt8.xor_zero]
  · rw [UInt8.zero_xor, if_neg hcarry, if_pos rfl, UInt8.xor_zero, UInt8.xor_assoc]
  · rw [UInt8.xor_zero, if_neg hcarry, if_pos rfl, UInt8.xor_zero]
    ac_rfl
  · rw [UInt8.xor_self, if_neg hcarry, if_pos rfl, UInt8.xor_zero]
    generalize a <<< 1 = x
    generalize b <<< 1 = y
    calc x ^^^ y = x ^^^ y ^^^ (0x1b ^^^ 0x1b) := by rw [UInt8.xor_self, UInt8.xor_zero]
      _ = x ^^^ 0x1b ^^^ (y ^^^ 0x1b) := by ac_rfl

theorem ite_xor (c : Prop) [Decidable c] (a b : UInt8) :
    (if c then 0 else a ^^^ b) = (if c then 0 else a) ^^^ (if c then 0 else b) := by
  split
  · rfl
  · rfl

theorem times_xor (k a b : UInt8) : times k (a ^^^ b) = times k a ^^^ times k b := by
  unfold times
  simp only [double_xor, ite_xor]
  ac_rfl

theorem xor_left_comm (a b c : UInt8) : a ^^^ (b ^^^ c) = b ^^^ (a ^^^ c) := by ac_rfl

theorem xor_cancel_left (a b : UInt8) : a ^^^ (a ^^^ b) = b := by
  rw [← UInt8.xor_assoc, UInt8.xor_self, UInt8.zero_xor]

/-- The mixed bytes of a column are mixed back: each byte to itself, each other byte to nothing. The
powers of `x` that occur cancel already as polynomials. -/
theorem mixing (b : UInt8) :
    times 14 (times 2 b) ^^^ times 11 (times 1 b) ^^^ times 13 (times 1 b) ^^^ times 9 (times 3 b) = b ∧
    times 14 (times 3 b) ^^^ times 11 (times 2 b) ^^^ times 13 (times 1 b) ^^^ times 9 (times 1 b) = 0 ∧
    times 14 (times 1 b) ^^^ times 11 (times 3 b) ^^^ times 13 (times 2 b) ^^^ times 9 (times 1 b) = 0 ∧
    times 14 (times 1 b) ^^^ times 11 (times 1 b) ^^^ times 13 (times 3 b) ^^^ times 9 (times 2 b) = 0 := by
  have h1 : ∀ b, times 1 b = b := fun b => by simp +decide [times]
  have h2 : ∀ b, times 2 b = double b := fun b => by simp +decide [times]
  have h3 : ∀ b, times 3 b = b ^^^ double b := fun b => by simp +decide [times]
  have h9 : ∀ b, times 9 b = b ^^^ double (double (double b)) := fun b => by simp +decide [times]
  have h11 : ∀ b, times 11 b = b ^^^ double b ^^^ double (double (double b)) := fun b => by
    simp +decide [times]
  have h13 : ∀ b, times 13 b = b ^^^ double (double b) ^^^ double (double (double b)) := fun b => by
    simp +decide [times]
  have h14 : ∀ b, times 14 b = double b ^^^ double (double b) ^^^ double (double (double b)) :=
    fun b => by simp +decide [times]
  simp only [h1, h2, h3, h9, h11, h13, h14, double_xor, UInt8.xor_assoc, UInt8.xor_comm, xor_left_comm,
    xor_cancel_left, UInt8.xor_self, UInt8.xor_zero, UInt8.zero_xor, and_self]

theorem unmix_entry (a b c d : UInt8) :
    times 14 (times 2 a ^^^ times 3 b ^^^ times 1 c ^^^ times 1 d) ^^^
      times 11 (times 1 a ^^^ times 2 b ^^^ times 3 c ^^^ times 1 d) ^^^
      times 13 (times 1 a ^^^ times 1 b ^^^ times 2 c ^^^ times 3 d) ^^^
      times 9 (times 3 a ^^^ times 1 b ^^^ times 1 c ^^^ times 2 d) = a := by
  obtain ⟨ha, -, -, -⟩ := mixing a
  obtain ⟨-, hb, -, -⟩ := mixing b
  obtain ⟨-, -, hc, -⟩ := mixing c
  obtain ⟨-, -, -, hd⟩ := mixing d
  simp only [times_xor]
  calc _ = (times 14 (times 2 a) ^^^ times 11 (times 1 a) ^^^ times 13 (times 1 a) ^^^
          times 9 (times 3 a)) ^^^
        (times 14 (times 3 b) ^^^ times 11 (times 2 b) ^^^ times 13 (times 1 b) ^^^
          times 9 (times 1 b)) ^^^
        (times 14 (times 1 c) ^^^ times 11 (times 3 c) ^^^ times 13 (times 2 c) ^^^
          times 9 (times 1 c)) ^^^
        (times 14 (times 1 d) ^^^ times 11 (times 1 d) ^^^ times 13 (times 3 d) ^^^
          times 9 (times 2 d)) := by ac_rfl
    _ = a := by rw [ha, hb, hc, hd, UInt8.xor_zero, UInt8.xor_zero, UInt8.xor_zero]

theorem unmixColumn_mixColumn (a b c d : UInt8) :
    mixColumn 14 11 13 9 (times 2 a ^^^ times 3 b ^^^ times 1 c ^^^ times 1 d)
      (times 1 a ^^^ times 2 b ^^^ times 3 c ^^^ times 1 d)
      (times 1 a ^^^ times 1 b ^^^ times 2 c ^^^ times 3 d)
      (times 3 a ^^^ times 1 b ^^^ times 1 c ^^^ times 2 d) = [a, b, c, d] := by
  unfold mixColumn
  -- The other three entries are the first one of the column turned.
  refine List.cons_eq_cons.mpr ⟨unmix_entry a b c d, List.cons_eq_cons.mpr ⟨?_,
    List.cons_eq_cons.mpr ⟨?_, List.cons_eq_cons.mpr ⟨?_, rfl⟩⟩⟩⟩
  · exact Eq.trans (by ac_rfl) (unmix_entry b c d a)
  · exact Eq.trans (by ac_rfl) (unmix_entry c d a b)
  · exact Eq.trans (by ac_rfl) (unmix_entry d a b c)

theorem unmixColumns_mixColumns (s : Bytes) : unmixColumns (mixColumns s) = s := by
  unfold unmixColumns mixColumns
  induction s using mapColumns.induct with
  | case1 a b c d rest ih =>
    change mixColumn 14 11 13 9 _ _ _ _ ++
      mapColumns (mixColumn 14 11 13 9) (mapColumns (mixColumn 2 3 1 1) rest) = _
    rw [unmixColumn_mixColumn, ih]
    rfl
  | case2 rest hshort =>
    have hrest : ∀ f, mapColumns f rest = rest := fun f => mapColumns.eq_2 f rest hshort
    rw [hrest, hrest]

theorem length_mapColumns {f : UInt8 → UInt8 → UInt8 → UInt8 → Bytes}
    (hf : ∀ a b c d, (f a b c d).length = 4) (s : Bytes) : (mapColumns f s).length = s.length := by
  induction s using mapColumns.induct with
  | case1 a b c d rest ih =>
    rw [mapColumns, List.length_append, hf, ih]
    simp only [List.length_cons]
    omega
  | case2 rest hshort => rw [mapColumns.eq_2 f rest hshort]

theorem length_mixColumns (s : Bytes) : (mixColumns s).length = s.length :=
  length_mapColumns (fun _ _ _ _ => rfl) s

/-! ### Rounds -/

theorem length_encryptRound {s roundKey : Bytes} (hkey : roundKey.length = 16) :
    (encryptRound s roundKey).length = 16 := by
  unfold encryptRound
  refine Bytes.length_xor_of_eq ?_ hkey
  rw [length_mixColumns, length_shiftRows]

theorem decryptRound_encryptRound {s roundKey : Bytes} (hs : s.length = 16)
    (hkey : roundKey.length = 16) : decryptRound (encryptRound s roundKey) roundKey = s := by
  have hmixed : (mixColumns (shiftRows (s.map substitute))).length = 16 := by
    rw [length_mixColumns, length_shiftRows]
  unfold decryptRound encryptRound
  rw [Bytes.xor_xor (Nat.le_of_eq (hmixed.trans hkey.symm)), unmixColumns_mixColumns,
    unshiftRows_shiftRows (by rw [List.length_map, hs]), map_unsubstitute_substitute]

theorem decryptRounds_encryptRounds {keys : List Bytes} (hkeys : ∀ k ∈ keys, k.length = 16)
    {s : Bytes} (hs : s.length = 16) :
    (keys.foldl encryptRound s).length = 16 ∧
      keys.reverse.foldl decryptRound (keys.foldl encryptRound s) = s := by
  induction keys generalizing s with
  | nil => exact ⟨hs, rfl⟩
  | cons key keys ih =>
    have hkey : key.length = 16 := hkeys key List.mem_cons_self
    obtain ⟨hlength, hundone⟩ := ih (fun k hk => hkeys k (List.mem_cons_of_mem key hk))
      (length_encryptRound hkey)
    refine ⟨hlength, ?_⟩
    rw [List.foldl_cons, List.reverse_cons, List.foldl_append, hundone]
    exact decryptRound_encryptRound hs hkey

theorem inverts_with {first last : Bytes} {middle : List Bytes} (hfirst : first.length = 16)
    (hmiddle : ∀ k ∈ middle, k.length = 16) (hlast : last.length = 16) :
    BlockCipher.Inverts ⟨encryptWith first middle last, decryptWith first middle last⟩ := by
  intro block hblock
  have hstart : (Bytes.xor block first).length = 16 := Bytes.length_xor_of_eq hblock hfirst
  obtain ⟨hlength, hundone⟩ := decryptRounds_encryptRounds hmiddle hstart
  refine ⟨Bytes.length_xor_of_eq (length_shiftRows _) hlast, ?_⟩
  change Bytes.xor (middle.reverse.foldl decryptRound ((unshiftRows (Bytes.xor (Bytes.xor (shiftRows
    ((middle.foldl encryptRound (Bytes.xor block first)).map substitute)) last) last)).map
      unsubstitute)) first = block
  rw [Bytes.xor_xor (Nat.le_of_eq ((length_shiftRows _).trans hlast.symm)),
    unshiftRows_shiftRows (by rw [List.length_map, hlength]),
    map_unsubstitute_substitute, hundone, Bytes.xor_xor (Nat.le_of_eq (hblock.trans hfirst.symm))]

/-! ### The key schedule -/

theorem length_getD {n i : Nat} {words : List Bytes} (hi : i < words.length)
    (hwords : ∀ w ∈ words, w.length = n) : (words.getD i []).length = n := by
  rw [List.getD_eq_getElem?_getD, List.getElem?_eq_getElem hi, Option.getD_some]
  exact hwords _ (List.getElem_mem hi)

theorem schedule_words (count : Nat) {words : List Bytes} (hcount : 8 ≤ words.length)
    (hwords : ∀ w ∈ words, w.length = 4) :
    (schedule count words).length = words.length + count ∧
      ∀ w ∈ schedule count words, w.length = 4 := by
  induction count generalizing words with
  | zero => exact ⟨rfl, hwords⟩
  | succ count ih =>
    have hget : ∀ i < 8, (words.getD i []).length = 4 := fun i hi =>
      length_getD (Nat.lt_of_lt_of_le hi hcount) hwords
    have hlast := hget 0 (by decide)
    unfold schedule
    extract_lets i last mixed
    have hmixed : mixed.length = 4 := by
      change (if i % 8 = 0 then _ else _ : Bytes).length = 4
      split
      · refine Bytes.length_xor_of_eq ?_ rfl
        rw [List.length_map, List.length_append, List.length_drop, List.length_take, hlast]
        rfl
      · split
        · rw [List.length_map]
          exact hlast
        · exact hlast
    have hnew : ∀ w ∈ Bytes.xor (words.getD 7 []) mixed :: words, w.length = 4 := by
      intro w hw
      rcases List.mem_cons.mp hw with rfl | hw
      · exact Bytes.length_xor_of_eq (hget 7 (by decide)) hmixed
      · exact hwords w hw
    have hmore : 8 ≤ (Bytes.xor (words.getD 7 []) mixed :: words).length := Nat.le_succ_of_le hcount
    obtain ⟨hlength, hall⟩ := ih hmore hnew
    refine ⟨?_, hall⟩
    rw [hlength, List.length_cons, Nat.add_right_comm, Nat.add_assoc]

theorem roundKeys_spec {key : Bytes} (hkey : key.length = 32) :
    (roundKeys key).length = 15 ∧ ∀ k ∈ roundKeys key, k.length = 16 := by
  have hlong : key.length = 4 * 8 := hkey
  obtain ⟨-, hcount, hwords⟩ := Bytes.blocks_spec (by decide) hlong
  have hfirst : 8 ≤ (key.blocks 4).reverse.length :=
    Nat.le_of_eq (by rw [List.length_reverse, hcount])
  obtain ⟨hlength, hall⟩ := schedule_words 52 hfirst fun w hw => hwords w (List.mem_reverse.mp hw)
  have hbytes : (schedule 52 (key.blocks 4).reverse).reverse.flatten.length = 16 * 15 := by
    rw [Bytes.length_flatten_of_forall fun w hw => hall w (List.mem_reverse.mp hw),
      List.length_reverse, hlength, List.length_reverse, hcount]
  exact (Bytes.blocks_spec (by decide) hbytes).2

theorem inverts_cipher {key : Bytes} (hkey : key.length = 32) : (cipher key).Inverts := by
  obtain ⟨hcount, hkeys⟩ := roundKeys_spec hkey
  have hget : ∀ i < 15, ((roundKeys key).getD i []).length = 16 := fun i hi =>
    length_getD (hcount ▸ hi) hkeys
  exact inverts_with (hget 0 (by decide))
    (fun k hk => hkeys k (List.mem_of_mem_drop (List.mem_of_mem_take hk))) (hget 14 (by decide))

end Aes
end SealedEnvelope
