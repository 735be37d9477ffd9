import SealedEnvelope.Curve.Weierstrass
import SealedEnvelope.Proofs.Bytes

/-!
# Encoded points

A point in 33 bytes is decoded to the point that those bytes encode, and its coordinates are below the
modulus. Whether the two curves have a prime modulus does not matter here, only that it is odd and fits
into 32 bytes: a root and its negative then have different parities.
-/

namespace SealedEnvelope

namespace Residue

theorem powOnto_lt {p : Nat} (hp : 0 < p) (base exponent bits : Nat) {done : Nat} (h : done < p) :
    powOnto p base exponent bits done < p := by
  induction bits generalizing done with
  | zero => exact h
  | succ bits ih =>
    unfold powOnto
    apply ih
    split
    · exact Nat.mod_lt _ hp
    · exact Nat.mod_lt _ hp

theorem pow_lt {p : Nat} (hp : 1 < p) (base exponent : Nat) : pow p base exponent < p :=
  powOnto_lt (Nat.zero_lt_of_lt hp) base exponent 256 hp

end Residue

namespace Weierstrass

/-- The modulus is odd and fits into 32 bytes. -/
structure Fits (c : Weierstrass) : Prop where
  odd : c.p % 2 = 1
  one_lt : 1 < c.p
  le : c.p ≤ 256 ^ 32

theorem p256_fits : p256.Fits := ⟨by decide, by decide, by decide⟩

theorem secp256k1_fits : secp256k1.Fits := ⟨by decide, by decide, by decide⟩

/-- What is asked of coordinates that are given. -/
structure Affine.On (q : Affine) (c : Weierstrass) : Prop where
  x_lt : q.x < c.p
  y_lt : q.y < c.p
  not_zeros : ¬(q.x = 0 ∧ q.y = 0)
  contains : c.contains q = true

variable {c : Weierstrass} {q : Affine}

theorem Affine.length_compressed (q : Affine) : q.compressed.length = 33 := by
  unfold compressed
  rw [List.length_cons, Bytes.length_ofNat]

theorem point?_eq_some {x y : Nat} (h : c.point? x y = some q) : q.On c := by
  simp only [point?] at h
  split at h
  · rename_i hq
    obtain rfl := Option.some.inj h
    exact ⟨hq.1, hq.2.1, hq.2.2.1, hq.2.2.2⟩
  · cases h

theorem point?_of_on (h : q.On c) : c.point? q.x q.y = some q :=
  if_pos ⟨h.x_lt, h.y_lt, h.not_zeros, h.contains⟩

theorem lift?_eq_some (hc : c.Fits) {x parity : Nat} (hparity : parity < 2)
    (h : c.lift? x parity = some q) : q.On c ∧ q.x = x ∧ q.y % 2 = parity := by
  simp only [lift?] at h
  split at h
  · rename_i hx
    have hroot : Residue.pow c.p (c.rhs x) ((c.p + 1) / 4) < c.p := Residue.pow_lt hc.one_lt _ _
    have hodd := hc.odd
    generalize Residue.pow c.p (c.rhs x) ((c.p + 1) / 4) = root at h hroot
    -- The modulus is odd, so exactly one of the root and its negative has the parity.
    have hy : (if root % 2 = parity then root else c.p - root) % 2 = parity := by
      split
      · assumption
      · omega
    generalize (if root % 2 = parity then root else c.p - root) = y at h hy
    split at h
    · rename_i hq
      obtain rfl := Option.some.inj h
      exact ⟨⟨hx.2, hq.1, fun hzero => Nat.ne_of_gt hx.1 hzero.1, hq.2⟩, rfl, hy⟩
    · cases h
  · cases h

theorem lift?_zero (c : Weierstrass) (parity : Nat) : c.lift? 0 parity = none :=
  if_neg fun h => Nat.lt_irrefl 0 h.1

theorem on_of_decode? (hc : c.Fits) {b : Bytes} (h : c.decode? b = some q) : q.On c := by
  cases b with
  | nil => cases h
  | cons head tail =>
    simp only [decode?] at h
    split at h
    · exact (lift?_eq_some hc (Nat.mod_lt _ Nat.two_pos) h).1
    · split at h
      · exact point?_eq_some h
      · cases h

theorem compressed_of_decode? (hc : c.Fits) {b : Bytes} (hb : b.length = 33)
    (h : c.decode? b = some q) : q.compressed = b := by
  cases b with
  | nil => cases hb
  | cons head tail =>
    have htail : tail.length = 32 := Nat.succ.inj hb
    simp only [decode?] at h
    split at h
    · rename_i hhead
      obtain ⟨-, hx, hy⟩ := lift?_eq_some hc (Nat.mod_lt _ Nat.two_pos) h
      have hsame : UInt8.ofNat (2 + head.toNat % 2) = head := by
        rcases hhead.2 with rfl | rfl
        · rfl
        · rfl
      unfold Affine.compressed
      rw [hx, hy, hsame, Bytes.ofNat_toNat htail]
    · rw [if_neg fun hlong => by omega] at h
      cases h

theorem decode?_compressed (c : Weierstrass) (hx : q.x < 256 ^ 32) :
    c.decode? q.compressed = c.lift? q.x (q.y % 2) := by
  have hparity : q.y % 2 = 0 ∨ q.y % 2 = 1 := Nat.mod_two_eq_zero_or_one q.y
  simp only [Affine.compressed, decode?, Bytes.length_ofNat, Bytes.toNat_ofNat hx]
  rcases hparity with h | h
  · rw [h]
    rfl
  · rw [h]
    rfl

/-- A second point for the cases that are run. -/
def twiceGenerator (c : Weierstrass) : Affine :=
  (c.affine? (c.double c.generator.jacobian)).getD c.generator

end Weierstrass
end SealedEnvelope
