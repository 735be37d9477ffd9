import SealedEnvelope.Proofs.Curve.Encoding
import SealedEnvelope.Proofs.Curve.Primality

/-!
# Points come back from 33 bytes

The modulus of both curves is a prime that leaves three when it is divided by four, so a square has two
roots, and the power that decoding computes is one of them. The parity tells which one is meant.

Decoding refuses the horizontal coordinate zero. On secp256k1 there is no such point. On P-256 there are
two: they are read from 65 bytes, but not from the 33 bytes that they are then encoded in.
-/

namespace SealedEnvelope

namespace Weierstrass

/-- The modulus is a prime with easy square roots. -/
structure Rooted (c : Weierstrass) : Prop extends Fits c where
  prime : c.p.Prime
  mod_four : c.p % 4 = 3

theorem p256_rooted : p256.Rooted := ⟨p256_fits, Primality.p256_prime, by decide⟩

theorem secp256k1_rooted : secp256k1.Rooted :=
  ⟨secp256k1_fits, Primality.secp256k1_prime, by decide⟩

/-- Whether a point is decoded from its 33 bytes. -/
def ReadsBack (c : Weierstrass) (q : Affine) : Prop := c.decode? q.compressed = some q

instance (c : Weierstrass) (q : Affine) : Decidable (c.ReadsBack q) :=
  inferInstanceAs (Decidable (_ = _))

variable {c : Weierstrass} {q : Affine}

theorem root_mul_self (hc : c.Rooted) {n y : Nat} (h : y * y % c.p = n) :
    (Residue.pow c.p n ((c.p + 1) / 4) : ZMod c.p) * Residue.pow c.p n ((c.p + 1) / 4) = y * y := by
  have := Fact.mk hc.prime
  have hle : c.p ≤ 2 ^ 256 := hc.le
  have hmod := hc.mod_four
  have hn : (n : ZMod c.p) = y * y := by rw [← h, Residue.cast_mod (dvd_refl c.p), Nat.cast_mul]
  have hexponent : (c.p + 1) / 4 + (c.p + 1) / 4 + ((c.p + 1) / 4 + (c.p + 1) / 4) = c.p + 1 := by
    omega
  rw [Residue.cast_pow (dvd_refl c.p) n (by omega), hn]
  calc ((y : ZMod c.p) * y) ^ ((c.p + 1) / 4) * (y * y) ^ ((c.p + 1) / 4)
      = (y : ZMod c.p) ^ (c.p + 1) := by rw [mul_pow, ← pow_add, ← pow_add, hexponent]
    _ = y * y := by rw [pow_succ, ZMod.pow_card]

theorem root_eq_or (hc : c.Rooted) {n y : Nat} (hy : y < c.p) (h : y * y % c.p = n) :
    Residue.pow c.p n ((c.p + 1) / 4) = y ∨ Residue.pow c.p n ((c.p + 1) / 4) + y = c.p := by
  have := Fact.mk hc.prime
  have hroot := Residue.pow_lt hc.one_lt n ((c.p + 1) / 4)
  have hsquare := root_mul_self hc h
  generalize Residue.pow c.p n ((c.p + 1) / 4) = root at hroot hsquare ⊢
  rcases mul_self_eq_mul_self_iff.mp hsquare with hsame | hneg
  · left
    rw [ZMod.natCast_eq_natCast_iff', Nat.mod_eq_of_lt hroot, Nat.mod_eq_of_lt hy] at hsame
    exact hsame
  · have hzero : ((root + y : Nat) : ZMod c.p) = 0 := by rw [Nat.cast_add, hneg, neg_add_cancel]
    obtain ⟨k, hk⟩ := (ZMod.natCast_eq_zero_iff _ _).mp hzero
    -- The sum of two residues is a multiple of the modulus: nothing or the modulus itself.
    have hlt : k < 2 := by
      by_contra hnot
      have := Nat.mul_le_mul_left c.p (Nat.not_lt.mp hnot)
      omega
    interval_cases k
    · left
      omega
    · right
      omega

theorem lift?_of_on (hc : c.Rooted) (hq : q.On c) (hx : q.x ≠ 0) :
    c.lift? q.x (q.y % 2) = some q := by
  have hodd := hc.odd
  have hy := hq.y_lt
  have hroot := root_eq_or hc hy (beq_iff_eq.mp hq.contains)
  simp only [lift?]
  rw [if_pos ⟨Nat.pos_of_ne_zero hx, hq.x_lt⟩]
  generalize Residue.pow c.p (c.rhs q.x) ((c.p + 1) / 4) = root at hroot ⊢
  have hchosen : (if root % 2 = q.y % 2 then root else c.p - root) = q.y := by
    split
    · omega
    · omega
  rw [hchosen]
  exact if_pos ⟨hy, hq.contains⟩

/-- A point of the curve is read back from 33 bytes unless its horizontal coordinate is zero. -/
theorem readsBack_iff (hc : c.Rooted) (hq : q.On c) : c.ReadsBack q ↔ q.x ≠ 0 := by
  have hx : q.x < 256 ^ 32 := Nat.lt_of_lt_of_le hq.x_lt hc.le
  unfold ReadsBack
  rw [decode?_compressed c hx]
  constructor
  · intro h hzero
    rw [hzero, lift?_zero] at h
    cases h
  · exact lift?_of_on hc hq

theorem exists_not_readsBack : ∃ q : Affine, q.On p256 ∧ ¬p256.ReadsBack q := by
  have hroot : (⟨0, Residue.pow p256.p p256.b ((p256.p + 1) / 4)⟩ : Affine).On p256 :=
    ⟨by decide +kernel, by decide +kernel, by decide +kernel, by decide +kernel⟩
  exact ⟨_, hroot, fun h => (readsBack_iff p256_rooted hroot).mp h rfl⟩

/-- Seven is not a square modulo the prime of secp256k1. -/
theorem x_ne_zero_of_on_secp256k1 (hq : q.On secp256k1) : q.x ≠ 0 := by
  intro hzero
  have hcontains := hq.contains
  have hseven : q.y * q.y % secp256k1.p = 7 := by
    unfold contains at hcontains
    rw [hzero] at hcontains
    exact beq_iff_eq.mp hcontains
  have hsquare := root_mul_self secp256k1_rooted hseven
  rw [← Nat.cast_mul, ← Nat.cast_mul, ZMod.natCast_eq_natCast_iff', hseven] at hsquare
  revert hsquare
  decide +kernel

end Weierstrass
end SealedEnvelope
