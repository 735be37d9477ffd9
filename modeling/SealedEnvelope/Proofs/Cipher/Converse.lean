import Mathlib.Data.FinEnum
import Mathlib.Data.Set.Finite.List
import SealedEnvelope.Proofs.Cipher.Content
import SealedEnvelope.Proofs.Cipher.KeyWrap

/-!
# What opens has been sealed

Decryption accepts only what encryption makes. There are finitely many blocks, so a cipher that is undone
on them reaches all of them and undoes its own inverse as well. From that a pass that has been undone is
found again by doing it, and with it the whole wrapped key; sealed content is found again because its tag
is recomputed from the ciphertext.
-/

namespace SealedEnvelope

namespace BlockCipher

variable {c : BlockCipher}

/-- A cipher that maps the blocks one to one maps them onto each other. -/
theorem Inverts.encrypt_decrypt (hc : c.Inverts) {block : Bytes} (h : block.length = 16) :
    (c.decrypt block).length = 16 ∧ c.encrypt (c.decrypt block) = block := by
  have hfinite : {b : Bytes | b.length = 16}.Finite := List.finite_length_eq UInt8 16
  have hmaps : Set.MapsTo c.encrypt {b | b.length = 16} {b | b.length = 16} :=
    fun b hb => (hc b hb).1
  have hinjective : Set.InjOn c.encrypt {b | b.length = 16} := by
    intro a ha b hb hsame
    rw [← (hc a ha).2, hsame, (hc b hb).2]
  obtain ⟨plain, hplain, rfl⟩ := ((hfinite.injOn_iff_bijOn_of_mapsTo hmaps).mp hinjective).surjOn h
  rw [(hc plain hplain).2]
  exact ⟨hplain, rfl⟩

end BlockCipher

namespace KeyWrap

variable {c : BlockCipher}

theorem unwrapPass_spec (hc : c.Inverts) (rs : List Bytes) (step : Nat) {check : Bytes}
    (hcheck : check.length = 8) (hrs : ∀ r ∈ rs, r.length = 8) :
    Halves (unwrapPass c step check rs) ∧ (unwrapPass c step check rs).2.length = rs.length ∧
      wrapPass c step (unwrapPass c step check rs).1 (unwrapPass c step check rs).2 = (check, rs) := by
  induction rs generalizing step check with
  | nil => exact ⟨⟨hcheck, hrs⟩, rfl, rfl⟩
  | cons r rs ih =>
    obtain ⟨hr, hrest⟩ := List.forall_mem_cons.mp hrs
    obtain ⟨⟨hcheck', hrs'⟩, hcount, hredone⟩ := ih (step + 1) hcheck hrest
    unfold unwrapPass
    generalize unwrapPass c (step + 1) check rs = inner at *
    have hblock : (tagged inner.1 step ++ r).length = 16 := by
      rw [List.length_append, length_tagged hcheck' step, hr]
    obtain ⟨hplain, hencrypt⟩ := hc.encrypt_decrypt hblock
    refine ⟨⟨?_, ?_⟩, congrArg Nat.succ hcount, ?_⟩
    · simp [hplain]
    · rw [List.forall_mem_cons]
      exact ⟨by simp [hplain], hrs'⟩
    · have hhead : (tagged inner.1 step ++ r).take 8 = tagged inner.1 step := by
        rw [← length_tagged hcheck' step, List.take_left]
      have htail : (tagged inner.1 step ++ r).drop 8 = r := by
        rw [← length_tagged hcheck' step, List.drop_left]
      unfold wrapPass
      simp only
      rw [List.take_append_drop, hencrypt, hhead, htail, tagged_tagged hcheck', hredone]

theorem unwrapPasses_spec (hc : c.Inverts) (starts : List Nat) {s : Bytes × List Bytes}
    (hs : Halves s) :
    Halves (unwrapPasses c starts s) ∧ (unwrapPasses c starts s).2.length = s.2.length ∧
      wrapPasses c starts (unwrapPasses c starts s) = s := by
  induction starts with
  | nil => exact ⟨hs, rfl, rfl⟩
  | cons start starts ih =>
    obtain ⟨hhalves, hcount, hredone⟩ := ih
    -- The first pass is the last one to be undone.
    have hlast : unwrapPasses c (start :: starts) s =
        unwrapPass c start (unwrapPasses c starts s).1 (unwrapPasses c starts s).2 := by
      unfold unwrapPasses
      rw [List.reverse_cons, List.foldl_append]
      rfl
    obtain ⟨hhalves', hcount', hredone'⟩ :=
      unwrapPass_spec hc (unwrapPasses c starts s).2 start hhalves.1 hhalves.2
    rw [hlast]
    refine ⟨hhalves', hcount'.trans hcount, ?_⟩
    unfold wrapPasses at hredone ⊢
    rw [List.foldl_cons, hredone', hredone]

theorem wrapWith_of_unwrapWith (hc : c.Inverts) {wrapped key : Bytes} {n : Nat}
    (hwrapped : wrapped.length = 8 * n + 8) (h : unwrapWith c wrapped = some key) :
    key.length = 8 * n ∧ wrapWith c key = wrapped := by
  have hcheck : (wrapped.take 8).length = 8 := by simp [hwrapped]
  have hrest : (wrapped.drop 8).length = 8 * n := by simp [hwrapped]
  obtain ⟨hflatten, hcount, hpieces⟩ := Bytes.blocks_spec (by decide) hrest
  obtain ⟨⟨-, hrs⟩, hsame, hredone⟩ := unwrapPasses_spec hc
    (starts (Bytes.blocks 8 (wrapped.drop 8)).length)
    (s := (wrapped.take 8, Bytes.blocks 8 (wrapped.drop 8))) ⟨hcheck, hpieces⟩
  simp only [unwrapWith] at h
  generalize unwrapPasses c (starts (Bytes.blocks 8 (wrapped.drop 8)).length)
    (wrapped.take 8, Bytes.blocks 8 (wrapped.drop 8)) = state at *
  obtain ⟨check, rs⟩ := state
  simp only at h hrs hsame
  split at h
  · rename_i hvalue
    obtain rfl := Option.some.inj h
    rw [hvalue, ← hsame] at hredone
    refine ⟨?_, ?_⟩
    · rw [Bytes.length_flatten_of_forall hrs, hsame, hcount]
    · simp only [wrapWith, Bytes.blocks_flatten (by decide : 0 < 8) hrs, hredone, hflatten]
      exact List.take_append_drop 8 wrapped
  · cases h

theorem wrap_of_unwrap {kek key wrapped : Bytes} (h : unwrap kek wrapped = .ok key) :
    wrap kek key = .ok wrapped := by
  unfold unwrap at h
  split at h
  · cases h
  · rename_i hkek
    split at h
    · cases h
    · rename_i hwrapped
      rw [not_or, Nat.not_lt, Decidable.not_not] at hwrapped
      obtain ⟨n, hn⟩ := Nat.dvd_of_mod_eq_zero hwrapped.2
      have hlength : wrapped.length = 8 * (n - 1) + 8 := by omega
      split at h
      · rename_i found hfound
        obtain rfl := Except.ok.inj h
        obtain ⟨hkey, hrewrapped⟩ :=
          wrapWith_of_unwrapWith (Aes.inverts_cipher (Decidable.not_not.mp hkek)) hlength hfound
        unfold wrap
        rw [if_neg hkek, if_neg (by omega), hrewrapped]
      · cases h

end KeyWrap

namespace Content

theorem encrypt_of_opened {key plaintext aad : Bytes} {content : SealedContent}
    (h : opened key content aad = .ok plaintext) :
    key.length = keyLength ∧ content.iv.length = ivLength ∧ content.tag.length = tagLength ∧
      Gcm.encrypt (Aes.cipher key) content.iv aad plaintext = (content.ciphertext, content.tag) := by
  unfold opened at h
  split at h
  · cases h
  · rename_i hsizes
    simp only [not_or, Decidable.not_not] at hsizes
    obtain ⟨hkey, hiv, htag⟩ := hsizes
    refine ⟨hkey, hiv, htag, ?_⟩
    simp only [Gcm.decrypt?] at h
    split at h
    · rename_i found hfound
      obtain rfl := Except.ok.inj h
      split at hfound
      · rename_i hsame
        obtain rfl := Option.some.inj hfound
        simp only [Gcm.encrypt, Gcm.crypt_crypt (Aes.inverts_cipher hkey) hiv, hsame]
      · cases hfound
    · cases h

end Content
end SealedEnvelope
