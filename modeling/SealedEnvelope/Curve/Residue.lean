/-!
# Arithmetic modulo a prime

Residues are natural numbers below the modulus. Powers walk down the 256 bits of the exponent, and
inverses and square roots are powers.
-/

namespace SealedEnvelope

namespace Residue

def sub (p a b : Nat) : Nat := (a + p - b) % p

/-- `base ^ exponent` for an exponent below `2 ^ bits`, on top of `done`. -/
def powOnto (p base exponent : Nat) : (bits : Nat) → (done : Nat) → Nat
  | 0, done => done
  | bits + 1, done =>
    let square := done * done % p
    powOnto p base exponent bits (if exponent.testBit bits then square * base % p else square)

def pow (p base exponent : Nat) : Nat := powOnto p base exponent 256 1

/-- The inverse of a residue other than zero, by Fermat's little theorem. -/
def inverse (p a : Nat) : Nat := pow p a (p - 2)

end Residue
end SealedEnvelope
