import SealedEnvelope.Cipher.KeyWrap
import SealedEnvelope.Proofs.Cipher.Aes
import SealedEnvelope.Proofs.Outcome

/-!
# A wrapped key is unwrapped

A pass is undone block by block, from the last semiblock to the first, and the passes are undone in
reverse order. Then the check value is the one from the start, so a wrapped key opens.
-/

namespace SealedEnvelope

namespace KeyWrap

variable {c : BlockCipher}

/-- The check value and the semiblocks have eight bytes each. -/
def Halves (s : Bytes × List Bytes) : Prop := s.1.length = 8 ∧ ∀ r ∈ s.2, r.length = 8

theorem length_tagged {check : Bytes} (h : check.length = 8) (step : Nat) :
    (tagged check step).length = 8 :=
  Bytes.length_xor_of_eq h (Bytes.length_ofNat 8 step)

theorem tagged_tagged {check : Bytes} (h : check.length = 8) (step : Nat) :
    tagged (tagged check step) step = check :=
  Bytes.xor_xor (Nat.le_of_eq (h.trans (Bytes.length_ofNat 8 step).symm))

/-- A pass keeps the number and the sizes of the parts, and it is undone. -/
theorem wrapPass_spec (hc : c.Inverts) (rs : List Bytes) (step : Nat) {check : Bytes}
    (hcheck : check.length = 8) (hrs : ∀ r ∈ rs, r.length = 8) :
    Halves (wrapPass c step check rs) ∧ (wrapPass c step check rs).2.length = rs.length ∧
      unwrapPass c step (wrapPass c step check rs).1 (wrapPass c step check rs).2 = (check, rs) := by
  induction rs generalizing step check with
  | nil => exact ⟨⟨hcheck, hrs⟩, rfl, rfl⟩
  | cons r rs ih =>
    have hr : r.length = 8 := hrs r List.mem_cons_self
    obtain ⟨hblock, hdecrypt⟩ := hc (check ++ r) (by rw [List.length_append, hcheck, hr])
    have hhead : ((c.encrypt (check ++ r)).take 8).length = 8 := by
      rw [List.length_take, hblock]
      rfl
    have htail : ((c.encrypt (check ++ r)).drop 8).length = 8 := by rw [List.length_drop, hblock]
    obtain ⟨⟨hcheck', hrs'⟩, hcount, hundone⟩ := ih (step + 1)
      (length_tagged hhead step) fun s hs => hrs s (List.mem_cons_of_mem r hs)
    unfold wrapPass
    refine ⟨⟨hcheck', ?_⟩, congrArg Nat.succ hcount, ?_⟩
    · intro s hs
      rcases List.mem_cons.mp hs with rfl | hs
      · exact htail
      · exact hrs' s hs
    · unfold unwrapPass
      simp only
      rw [hundone, tagged_tagged hhead, List.take_append_drop, hdecrypt, ← hcheck, List.take_left,
        List.drop_left]

theorem wrapPasses_spec (hc : c.Inverts) (starts : List Nat) {s : Bytes × List Bytes}
    (hs : Halves s) :
    Halves (wrapPasses c starts s) ∧ (wrapPasses c starts s).2.length = s.2.length ∧
      unwrapPasses c starts (wrapPasses c starts s) = s := by
  induction starts generalizing s with
  | nil => exact ⟨hs, rfl, rfl⟩
  | cons start starts ih =>
    obtain ⟨hhalves, hcount, hundone⟩ := wrapPass_spec hc s.2 start hs.1 hs.2
    obtain ⟨hhalves', hcount', hundone'⟩ := ih hhalves
    refine ⟨hhalves', hcount'.trans hcount, ?_⟩
    unfold unwrapPasses at hundone' ⊢
    rw [List.reverse_cons, List.foldl_append]
    change unwrapPass c start (List.foldl _ (wrapPasses c starts (wrapPass c start s.1 s.2))
      starts.reverse).1 (List.foldl _ (wrapPasses c starts (wrapPass c start s.1 s.2))
      starts.reverse).2 = s
    rw [hundone', hundone]

theorem unwrapWith_wrapWith (hc : c.Inverts) {key : Bytes} {n : Nat} (hkey : key.length = 8 * n) :
    (wrapWith c key).length = 8 * n + 8 ∧ unwrapWith c (wrapWith c key) = some key := by
  obtain ⟨hflatten, hcount, hpieces⟩ := Bytes.blocks_spec (by decide) hkey
  obtain ⟨⟨hcheck, hrs⟩, hsame, hundone⟩ := wrapPasses_spec hc (starts (key.blocks 8).length)
    (s := (checkValue, key.blocks 8)) ⟨rfl, hpieces⟩
  have hwrapped : wrapWith c key =
      (wrapPasses c (starts (key.blocks 8).length) (checkValue, key.blocks 8)).1 ++
        (wrapPasses c (starts (key.blocks 8).length) (checkValue, key.blocks 8)).2.flatten := rfl
  generalize wrapPasses c (starts (key.blocks 8).length) (checkValue, key.blocks 8) = state at *
  obtain ⟨check, rs⟩ := state
  simp only at hcheck hrs hsame hwrapped
  rw [hwrapped]
  constructor
  · rw [List.length_append, hcheck, Bytes.length_flatten_of_forall hrs, hsame, hcount, Nat.add_comm]
  · unfold unwrapWith
    rw [← hcheck, List.take_left, List.drop_left, hcheck]
    simp only
    rw [Bytes.blocks_flatten (by decide) hrs, hsame, hundone]
    simp only
    rw [if_pos trivial, hflatten]

theorem unwrap_of_wrap {kek key wrapped : Bytes} (h : wrap kek key = .ok wrapped) :
    unwrap kek wrapped = .ok key := by
  unfold wrap at h
  split at h
  · cases h
  · rename_i hkek
    split at h
    · cases h
    · rename_i hkey
      obtain rfl := Except.ok.inj h
      rw [not_or, Nat.not_lt, Decidable.not_not] at hkey
      obtain ⟨n, hn⟩ := Nat.dvd_of_mod_eq_zero hkey.2
      obtain ⟨hlength, hunwrapped⟩ :=
        unwrapWith_wrapWith (Aes.inverts_cipher (Decidable.not_not.mp hkek)) hn
      unfold unwrap
      rw [if_neg hkek, if_neg, hunwrapped]
      rw [hlength]
      omega

end KeyWrap
end SealedEnvelope
