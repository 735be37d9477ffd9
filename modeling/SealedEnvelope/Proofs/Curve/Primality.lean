import Mathlib.FieldTheory.Finite.Basic
import Mathlib.Tactic.NormNum.Prime
import SealedEnvelope.Curve.Weierstrass

/-!
# The moduli and the orders are prime

A number is prime if some residue has an order that is divisible by distinct primes whose product is
above the square root of the number (Pocklington's criterion). The powers that show this are computed by
the very function that the curves use, whose result is the power in every field that the modulus leads
to. The modulus and the order of either curve get a chain of such numbers each, from primes that trial
division settles.
-/

namespace SealedEnvelope

namespace Residue

theorem cast_mod {r p : Nat} (hr : r ∣ p) (n : Nat) : ((n % p : Nat) : ZMod r) = n := by
  rw [ZMod.natCast_eq_natCast_iff', Nat.mod_mod_of_dvd n hr]

theorem cast_powOnto {r p : Nat} (hr : r ∣ p) (base exponent bits done : Nat) :
    (powOnto p base exponent bits done : ZMod r) =
      done ^ 2 ^ bits * base ^ (exponent % 2 ^ bits) := by
  induction bits generalizing done with
  | zero =>
    unfold powOnto
    rw [Nat.pow_zero, Nat.mod_one, pow_one, pow_zero, mul_one]
  | succ bits ih =>
    have hsquare : ((done * done % p : Nat) : ZMod r) ^ 2 ^ bits = done ^ 2 ^ (bits + 1) := by
      rw [cast_mod hr, Nat.cast_mul, ← pow_two, ← pow_mul, ← Nat.pow_succ']
    have htop : (base : ZMod r) ^ (exponent % 2 ^ (bits + 1)) =
        base ^ (2 ^ bits * (exponent.testBit bits).toNat) * base ^ (exponent % 2 ^ bits) := by
      rw [← pow_add, Nat.toNat_testBit, Nat.mod_pow_succ, Nat.add_comm]
    unfold powOnto
    rw [ih, htop]
    split
    · rename_i hbit
      rw [cast_mod hr, Nat.cast_mul, mul_pow, hsquare, hbit, Bool.toNat_true, Nat.mul_one, mul_assoc]
    · rename_i hbit
      rw [hsquare, Bool.eq_false_iff.mpr hbit, Bool.toNat_false, Nat.mul_zero, pow_zero, one_mul]

theorem cast_pow {r p : Nat} (hr : r ∣ p) (base : Nat) {exponent : Nat} (he : exponent < 2 ^ 256) :
    (pow p base exponent : ZMod r) = base ^ exponent := by
  unfold pow
  rw [cast_powOnto hr, Nat.mod_eq_of_lt he, Nat.cast_one, one_pow, one_mul]

end Residue

namespace Primality

/-- What is computed to certify `n`: `base` raised to `n - 1` is one, and raised to `n - 1` over any of
the divisors it differs from one modulo every factor of `n`. -/
def Certifies (n base : Nat) (divisors : Finset Nat) : Prop :=
  (1 < n ∧ n ≤ 2 ^ 256 ∧ n < (∏ q ∈ divisors, q) ^ 2) ∧
    Residue.pow n base (n - 1) = 1 ∧
      ∀ q ∈ divisors, q ∣ n - 1 ∧ (Residue.pow n base ((n - 1) / q) + (n - 1)).gcd n = 1

instance (n base : Nat) (divisors : Finset Nat) : Decidable (Certifies n base divisors) :=
  inferInstanceAs (Decidable (_ ∧ _))

/-- A prime that divides the exponent divides the order, if the exponent is needed in full. -/
theorem dvd_orderOf {G : Type*} [Monoid G] {g : G} {n q : Nat} (hq : q.Prime) (hdvd : q ∣ n)
    (hone : g ^ n = 1) (hne : g ^ (n / q) ≠ 1) : q ∣ orderOf g := by
  by_contra hnot
  have hcoprime : (orderOf g).Coprime q := ((Nat.Prime.coprime_iff_not_dvd hq).mpr hnot).symm
  have horder : orderOf g ∣ q * (n / q) := by
    rw [Nat.mul_div_cancel' hdvd]
    exact orderOf_dvd_of_pow_eq_one hone
  exact hne (orderOf_dvd_iff_pow_eq_one.mp (hcoprime.dvd_of_dvd_mul_left horder))

theorem pow_ne_one {n r base exponent : Nat} (hn : 1 ≤ n) (hr : r.Prime) (hrn : r ∣ n)
    (he : exponent < 2 ^ 256) (hgcd : (Residue.pow n base exponent + (n - 1)).gcd n = 1) :
    (base : ZMod r) ^ exponent ≠ 1 := by
  intro hone
  have hzero : ((Residue.pow n base exponent + (n - 1) : Nat) : ZMod r) = 0 := by
    rw [Nat.cast_add, Residue.cast_pow hrn base he, hone, Nat.cast_sub hn, Nat.cast_one,
      add_sub_cancel, (ZMod.natCast_eq_zero_iff n r).mpr hrn]
  have hdvd := Nat.dvd_gcd ((ZMod.natCast_eq_zero_iff _ r).mp hzero) hrn
  rw [hgcd] at hdvd
  exact hr.one_lt.ne' (Nat.dvd_one.mp hdvd)

/-- Every prime factor of a certified number is above the product of the divisors. -/
theorem prod_lt_of_dvd {n base r : Nat} {divisors : Finset Nat} (hprimes : ∀ q ∈ divisors, q.Prime)
    (h : Certifies n base divisors) (hr : r.Prime) (hrn : r ∣ n) : ∏ q ∈ divisors, q < r := by
  obtain ⟨⟨hone_lt, hfits, -⟩, hfermat, hdivisors⟩ := h
  have := Fact.mk hr
  have hpower : ((base : ZMod r)) ^ (n - 1) = 1 := by
    rw [← Residue.cast_pow hrn base (by omega), hfermat, Nat.cast_one]
  have hunit : (base : ZMod r) ≠ 0 := by
    intro hzero
    rw [hzero, zero_pow (by omega)] at hpower
    exact zero_ne_one hpower
  have horder : ∏ q ∈ divisors, q ∣ orderOf (base : ZMod r) := by
    apply Finset.prod_primes_dvd
    · exact fun q hq => (hprimes q hq).prime
    · intro q hq
      have hexponent : (n - 1) / q < 2 ^ 256 :=
        Nat.lt_of_le_of_lt (Nat.div_le_self _ _) (by omega)
      exact dvd_orderOf (hprimes q hq) (hdivisors q hq).1 hpower
        (pow_ne_one (by omega) hr hrn hexponent (hdivisors q hq).2)
  have hle := Nat.le_of_dvd (Nat.sub_pos_of_lt hr.one_lt)
    (horder.trans (ZMod.orderOf_dvd_card_sub_one hunit))
  have := hr.one_lt
  omega

theorem prime_of_certifies {n : Nat} (base : Nat) (divisors : Finset Nat)
    (hprimes : ∀ q ∈ divisors, q.Prime) (h : Certifies n base divisors) : n.Prime := by
  by_contra hn
  have hone_lt := h.1.1
  have hfactor := Nat.minFac_prime hone_lt.ne'
  have hlt := prod_lt_of_dvd hprimes h hfactor n.minFac_dvd
  have hsquare := Nat.pow_lt_pow_left hlt (by decide : 2 ≠ 0)
  have hle := Nat.minFac_sq_le_self (Nat.zero_lt_of_lt hone_lt) hn
  have hlarge := h.1.2.2
  omega

theorem forall_mem_singleton {q : Nat} (hq : q.Prime) : ∀ r ∈ ({q} : Finset Nat), r.Prime :=
  fun _ hr => Finset.mem_singleton.mp hr ▸ hq

theorem forall_mem_pair {q r : Nat} (hq : q.Prime) (hr : r.Prime) :
    ∀ s ∈ ({q, r} : Finset Nat), s.Prime := by
  intro s hs
  rcases Finset.mem_insert.mp hs with rfl | hs
  · exact hq
  · exact forall_mem_singleton hr s hs

/-! ### The modulus of P-256 -/

theorem p256_certified :
    Certifies 66417393611 6 {197, 3677} ∧
    Certifies 11290956913871 13 {66417393611} ∧
    Certifies 46076956964474543 5 {78283, 704251} ∧
    Certifies 774023187263532362759620327192479577272145303 3 {11290956913871, 46076956964474543} ∧
    Certifies 835945042244614951780389953367877943453916927241 11
      {774023187263532362759620327192479577272145303} ∧
    Certifies Weierstrass.p256.p 6 {835945042244614951780389953367877943453916927241} := by
  decide +kernel

theorem p256_prime : Weierstrass.p256.p.Prime := by
  obtain ⟨hbits36, hbits44, hbits56, hbits149, hbits159, hmodulus⟩ := p256_certified
  have hsmall : ∀ q ∈ ({197, 3677} : Finset Nat), q.Prime := by norm_num
  have hother : ∀ q ∈ ({78283, 704251} : Finset Nat), q.Prime := by norm_num
  have hprime36 := prime_of_certifies 6 _ hsmall hbits36
  have hprime44 := prime_of_certifies 13 _ (forall_mem_singleton hprime36) hbits44
  have hprime56 := prime_of_certifies 5 _ hother hbits56
  have hprime149 := prime_of_certifies 3 _ (forall_mem_pair hprime44 hprime56) hbits149
  have hprime159 := prime_of_certifies 11 _ (forall_mem_singleton hprime149) hbits159
  exact prime_of_certifies 6 _ (forall_mem_singleton hprime159) hmodulus

/-! ### The order of P-256 -/

theorem p256_order_certified :
    Certifies 191039911 2 {155317} ∧
    Certifies 208150935158385979 2 {127, 191039911} ∧
    Certifies 2624747550333869278416773953 2 {208150935158385979} ∧
    Certifies 1002328039319 2 {3969899} ∧
    Certifies Weierstrass.p256.order 2 {1002328039319, 2624747550333869278416773953} := by
  decide +kernel

theorem p256_order_prime : Weierstrass.p256.order.Prime := by
  obtain ⟨hbits28, hbits58, hbits92, hbits40, horder⟩ := p256_order_certified
  have hprime28 := prime_of_certifies 2 _ (forall_mem_singleton (by norm_num)) hbits28
  have hprime58 := prime_of_certifies 2 _ (forall_mem_pair (by norm_num) hprime28) hbits58
  have hprime92 := prime_of_certifies 2 _ (forall_mem_singleton hprime58) hbits92
  have hprime40 := prime_of_certifies 2 _ (forall_mem_singleton (by norm_num)) hbits40
  exact prime_of_certifies 2 _ (forall_mem_pair hprime40 hprime92) horder

/-! ### The modulus of secp256k1 -/

theorem secp256k1_certified :
    Certifies 255515944373312847190720520512484175977 3 {1627, 2657, 4423, 41201, 96557} ∧
    Certifies 205115282021455665897114700593932402728804164701536103180137503955397371 10
      {255515944373312847190720520512484175977} ∧
    Certifies Weierstrass.secp256k1.p 3
      {205115282021455665897114700593932402728804164701536103180137503955397371} := by
  decide +kernel

theorem secp256k1_prime : Weierstrass.secp256k1.p.Prime := by
  obtain ⟨hbits128, hbits237, hmodulus⟩ := secp256k1_certified
  have hsmall : ∀ q ∈ ({1627, 2657, 4423, 41201, 96557} : Finset Nat), q.Prime := by norm_num
  have hprime128 := prime_of_certifies 3 _ hsmall hbits128
  have hprime237 := prime_of_certifies 10 _ (forall_mem_singleton hprime128) hbits237
  exact prime_of_certifies 3 _ (forall_mem_singleton hprime237) hmodulus

/-! ### The order of secp256k1 -/

theorem secp256k1_order_certified :
    Certifies 297159362677 2 {1627771} ∧
    Certifies 29047611873442575647497758179 2 {305873, 297159362677} ∧
    Certifies 341948486974166000522343609283189 2 {29047611873442575647497758179} ∧
    Certifies 107361793816595537 2 {16699, 85831} ∧
    Certifies Weierstrass.secp256k1.order 2
      {107361793816595537, 341948486974166000522343609283189} := by
  decide +kernel

theorem secp256k1_order_prime : Weierstrass.secp256k1.order.Prime := by
  obtain ⟨hbits39, hbits95, hbits109, hbits57, horder⟩ := secp256k1_order_certified
  have hprime39 := prime_of_certifies 2 _ (forall_mem_singleton (by norm_num)) hbits39
  have hprime95 := prime_of_certifies 2 _ (forall_mem_pair (by norm_num) hprime39) hbits95
  have hprime109 := prime_of_certifies 2 _ (forall_mem_singleton hprime95) hbits109
  have hprime57 := prime_of_certifies 2 _ (forall_mem_pair (by norm_num) (by norm_num)) hbits57
  exact prime_of_certifies 2 _ (forall_mem_pair hprime57 hprime109) horder

end Primality
end SealedEnvelope
