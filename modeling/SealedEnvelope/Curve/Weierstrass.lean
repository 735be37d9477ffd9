import SealedEnvelope.Bytes
import SealedEnvelope.Curve.Residue

/-!
# Short Weierstrass curves

The points of `y ^ 2 = x ^ 3 + a x + b` over a prime field with `p % 4 = 3`, in Jacobian coordinates:
`x / z ^ 2` and `y / z ^ 3`, and `z = 0` at infinity. An encoded point is either both coordinates or the
horizontal one with the parity of the other; only points of the curve are decoded.
-/

namespace SealedEnvelope

/-- A curve of prime order with its generator. -/
structure Weierstrass where
  p : Nat
  a : Nat
  b : Nat
  order : Nat
  gx : Nat
  gy : Nat

namespace Weierstrass

open Residue

/-- The curve P-256. -/
def p256 : Weierstrass where
  p := 0xffffffff00000001000000000000000000000000ffffffffffffffffffffffff
  a := 0xffffffff00000001000000000000000000000000fffffffffffffffffffffffc
  b := 0x5ac635d8aa3a93e7b3ebbd55769886bc651d06b0cc53b0f63bce3c3e27d2604b
  order := 0xffffffff00000000ffffffffffffffffbce6faada7179e84f3b9cac2fc632551
  gx := 0x6b17d1f2e12c4247f8bce6e563a440f277037d812deb33a0f4a13945d898c296
  gy := 0x4fe342e2fe1a7f9b8ee7eb4a7c0f9e162bce33576b315ececbb6406837bf51f5

/-- The curve secp256k1. -/
def secp256k1 : Weierstrass where
  p := 0xfffffffffffffffffffffffffffffffffffffffffffffffffffffffefffffc2f
  a := 0
  b := 7
  order := 0xfffffffffffffffffffffffffffffffebaaedce6af48a03bbfd25e8cd0364141
  gx := 0x79be667ef9dcbbac55a06295ce870b07029bfcdb2dce28d959f2815b16f81798
  gy := 0x483ada7726a3c4655da4fbfc0e1108a8fd17b448a68554199c47d08ffb10d4b8

/-- A point other than infinity. -/
structure Affine where
  x : Nat
  y : Nat
  deriving DecidableEq

structure Jacobian where
  x : Nat
  y : Nat
  z : Nat

def infinity : Jacobian := ⟨1, 1, 0⟩

def Affine.jacobian (q : Affine) : Jacobian := ⟨q.x, q.y, 1⟩

variable (c : Weierstrass)

def generator : Affine := ⟨c.gx, c.gy⟩

/-- The right hand side of the equation. -/
def rhs (x : Nat) : Nat := (x * x % c.p * x + c.a * x + c.b) % c.p

def contains (q : Affine) : Bool := q.y * q.y % c.p == c.rhs q.x

def double (q : Jacobian) : Jacobian :=
  if q.z = 0 ∨ q.y = 0 then infinity
  else
    let yy := q.y * q.y % c.p
    let s := 4 * q.x * yy % c.p
    let zz := q.z * q.z % c.p
    let m := (3 * q.x * q.x + c.a * (zz * zz % c.p)) % c.p
    let x := sub c.p (m * m % c.p) (2 * s % c.p)
    let y := sub c.p (m * sub c.p s x % c.p) (8 * yy * yy % c.p)
    ⟨x, y, 2 * q.y * q.z % c.p⟩

def add (q r : Jacobian) : Jacobian :=
  if q.z = 0 then r
  else if r.z = 0 then q
  else
    let qzz := q.z * q.z % c.p
    let rzz := r.z * r.z % c.p
    let u1 := q.x * rzz % c.p
    let u2 := r.x * qzz % c.p
    let s1 := q.y * (r.z * rzz % c.p) % c.p
    let s2 := r.y * (q.z * qzz % c.p) % c.p
    if u1 = u2 then if s1 = s2 then c.double q else infinity
    else
      let h := sub c.p u2 u1
      let t := sub c.p s2 s1
      let hh := h * h % c.p
      let hhh := h * hh % c.p
      let v := u1 * hh % c.p
      let x := sub c.p (t * t % c.p) ((hhh + 2 * v) % c.p)
      let y := sub c.p (t * sub c.p v x % c.p) (s1 * hhh % c.p)
      ⟨x, y, h * (q.z * r.z % c.p) % c.p⟩

/-- Double and add over the lowest `bits` bits of `k`. -/
def mulOnto (k : Nat) (q : Jacobian) : (bits : Nat) → (done : Jacobian) → Jacobian
  | 0, done => done
  | bits + 1, done =>
    let twice := c.double done
    mulOnto k q bits (if k.testBit bits then c.add twice q else twice)

/-- `k` times a point, for `k` below `2 ^ 256`. -/
def mul (k : Nat) (q : Jacobian) : Jacobian := c.mulOnto k q 256 infinity

def affine? (q : Jacobian) : Option Affine :=
  if q.z = 0 then none
  else
    let i := inverse c.p q.z
    let ii := i * i % c.p
    some ⟨q.x * ii % c.p, q.y * (ii * i % c.p) % c.p⟩

/-- The parity of `y` and then `x`. -/
def Affine.compressed (q : Affine) : Bytes := UInt8.ofNat (2 + q.y % 2) :: Bytes.ofNat 32 q.x

/-- The point with the given horizontal coordinate and parity. -/
def lift? (x parity : Nat) : Option Affine :=
  if 0 < x ∧ x < c.p then
    let root := pow c.p (c.rhs x) ((c.p + 1) / 4)
    let y := if root % 2 = parity then root else c.p - root
    let q : Affine := ⟨x, y⟩
    if y < c.p ∧ c.contains q then some q else none
  else none

/-- The point with both coordinates given. The pair of zeros stands for infinity and is refused. -/
def point? (x y : Nat) : Option Affine :=
  let q : Affine := ⟨x, y⟩
  if x < c.p ∧ y < c.p ∧ ¬(x = 0 ∧ y = 0) ∧ c.contains q then some q else none

/-- Reads a point in 33 or 65 bytes. -/
def decode? : Bytes → Option Affine
  | [] => none
  | head :: tail =>
    if tail.length = 32 ∧ (head = 2 ∨ head = 3) then c.lift? (Bytes.toNat tail) (head.toNat % 2)
    else if tail.length = 64 ∧ head = 4 then
      c.point? (Bytes.toNat (tail.take 32)) (Bytes.toNat (tail.drop 32))
    else none

/-- The scalar that 32 bytes spell, if it is a private key. -/
def scalar? (privateKey : Bytes) : Option Nat :=
  if privateKey.length = 32 ∧ 0 < privateKey.toNat ∧ privateKey.toNat < c.order then
    some privateKey.toNat
  else none

end Weierstrass
end SealedEnvelope
