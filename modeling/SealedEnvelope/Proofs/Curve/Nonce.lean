import SealedEnvelope.Key.Type
import SealedEnvelope.Proofs.Curve.Primality

/-!
# Nonces

A nonce is usable if it is in range and leads to two numbers that are not zero. The second one is a
quotient by the nonce, and the order of the group is a prime, so it is zero only if its numerator is.

Signing walks a chain of candidates and stops at the first usable one. So a key signs a message exactly
if one of the candidates that are tried is usable. That one is found in a thousand is beyond doubt for a
hash like SHA-256, but it is not proved here.
-/

namespace SealedEnvelope

/-- The order of the group is a prime and fits into 32 bytes. -/
structure Weierstrass.PrimeOrder (c : Weierstrass) : Prop where
  prime : c.order.Prime
  le : c.order ≤ 2 ^ 256

theorem EcCurve.primeOrder_group (c : EcCurve) : c.group.PrimeOrder := by
  cases c with
  | p256 => exact ⟨Primality.p256_order_prime, by decide⟩
  | secp256k1 => exact ⟨Primality.secp256k1_order_prime, by decide⟩

theorem Residue.inverse_mul_mod_eq_zero_iff {p k : Nat} (hp : p.Prime) (hle : p ≤ 2 ^ 256) (hk : 0 < k)
    (hlt : k < p) (n : Nat) : inverse p k * n % p = 0 ↔ n % p = 0 := by
  have := Fact.mk hp
  have hpower : (inverse p k : ZMod p) = k ^ (p - 2) :=
    cast_pow (dvd_refl p) k (Nat.lt_of_lt_of_le (Nat.sub_lt hp.pos Nat.two_pos) hle)
  have hne : (k : ZMod p) ≠ 0 := fun hzero =>
    Nat.not_dvd_of_pos_of_lt hk hlt ((ZMod.natCast_eq_zero_iff k p).mp hzero)
  rw [← Nat.dvd_iff_mod_eq_zero, ← Nat.dvd_iff_mod_eq_zero, ← ZMod.natCast_eq_zero_iff,
    ← ZMod.natCast_eq_zero_iff, Nat.cast_mul, hpower, mul_eq_zero, or_iff_right (pow_ne_zero _ hne)]

namespace Ecdsa

/-- Whether the nonce `k` is usable for a digest `h` and a private number `d`: it is in range, and
neither the coordinate of its point nor the numerator that goes with it is zero modulo the order. -/
def Usable (c : Weierstrass) (d h k : Nat) : Prop :=
  (0 < k ∧ k < c.order) ∧ ∃ q ∈ c.affine? (c.mul k c.generator.jacobian),
    q.x % c.order ≠ 0 ∧ (h + q.x % c.order * d) % c.order ≠ 0

instance (c : Weierstrass) (d h k : Nat) : Decidable (Usable c d h k) :=
  inferInstanceAs (Decidable (_ ∧ _))

theorem isSome_signWith? {c : Weierstrass} (hc : c.PrimeOrder) (lowS : Bool) (d h k : Nat) :
    (signWith? c lowS d h k).isSome = true ↔ Usable c d h k := by
  unfold signWith? Usable
  by_cases hrange : 0 < k ∧ k < c.order
  · rw [if_pos hrange]
    cases hpoint : c.affine? (c.mul k c.generator.jacobian) with
    | none => simp
    | some q =>
      have hzero : Residue.inverse c.order k * ((h + q.x % c.order * d) % c.order) % c.order = 0 ↔
          (h + q.x % c.order * d) % c.order = 0 := by
        rw [Residue.inverse_mul_mod_eq_zero_iff hc.prime hc.le hrange.1 hrange.2, Nat.mod_mod]
      simp only [hzero]
      by_cases hnumbers : q.x % c.order = 0 ∨ (h + q.x % c.order * d) % c.order = 0
      · rw [if_pos hnumbers]
        simp [hrange, ← not_or, hnumbers]
      · rw [if_neg hnumbers]
        simp [hrange, ← not_or, hnumbers]
  · rw [if_neg hrange]
    simp [hrange]

namespace Chain

def next (c : Chain) : Chain := turn ⟨c.key, Hmac.sha256 c.key c.value⟩ 0 []

/-- The candidate behind `i` others. -/
def candidate (c : Chain) : (i : Nat) → Nat
  | 0 => (Hmac.sha256 c.key c.value).toNat
  | i + 1 => c.next.candidate i

theorem draw_succ {α : Type} (accept : Nat → Option α) (tries : Nat) (c : Chain) :
    c.draw accept (tries + 1) = (accept (c.candidate 0)).or (c.next.draw accept tries) := by
  simp only [draw, candidate]
  cases accept (Hmac.sha256 c.key c.value).toNat with
  | none => rfl
  | some result => rfl

theorem isSome_draw {α : Type} (accept : Nat → Option α) (tries : Nat) (c : Chain) :
    (c.draw accept tries).isSome = true ↔ ∃ i < tries, (accept (c.candidate i)).isSome = true := by
  induction tries generalizing c with
  | zero => simp [draw]
  | succ tries ih =>
    -- Either the first candidate is accepted or one of those behind it.
    rw [draw_succ, Option.isSome_or, Bool.or_eq_true, ih, Nat.exists_lt_succ_left]
    rfl

end Chain

def nonces (c : Weierstrass) (privateKey message : Bytes) : Chain :=
  .start (Bytes.ofNat 32 privateKey.toNat ++ Bytes.ofNat 32 (digest c message))

/-- One of the nonces that are tried is usable. -/
def DrawsNonce (c : Weierstrass) (privateKey message : Bytes) : Prop :=
  ∃ i < 1000, Usable c privateKey.toNat (digest c message) ((nonces c privateKey message).candidate i)

theorem isSome_sign? {c : Weierstrass} (hc : c.PrimeOrder) (lowS : Bool) (privateKey message : Bytes) :
    (sign? c lowS privateKey message).isSome = true ↔
      (c.scalar? privateKey).isSome = true ∧ DrawsNonce c privateKey message := by
  unfold sign?
  cases hscalar : c.scalar? privateKey with
  | none => simp
  | some d =>
    have hd : d = privateKey.toNat := by
      unfold Weierstrass.scalar? at hscalar
      split at hscalar
      · exact (Option.some.inj hscalar).symm
      · cases hscalar
    subst hd
    simp only [Chain.isSome_draw, isSome_signWith? hc, Option.isSome_some, true_and]
    rfl

end Ecdsa
end SealedEnvelope
