import SealedEnvelope.Bytes
import SealedEnvelope.Text.Basic

/-!
# Base 58

A byte string is one number, written in base 58 without the digits and letters that look alike. Zero
bytes in front would be lost in the number, so each is written as the digit for zero.
-/

namespace SealedEnvelope

namespace Base58

def alphabet : Text := "123456789ABCDEFGHJKLMNPQRSTUVWXYZabcdefghijkmnopqrstuvwxyz"

def digit (n : Nat) : CodeUnit := alphabet.getD n 0x31

def value? (u : CodeUnit) : Option Nat :=
  let i := alphabet.findIdx (· == u)
  if i < 58 then some i else none

/-- The digits of `n`, most significant first, in front of `done`. Zero has none. -/
def digitsOnto (base : Nat) (n : Nat) (done : List Nat) : List Nat :=
  if _h : n = 0 ∨ base < 2 then done
  else digitsOnto base (n / base) (n % base :: done)
termination_by n
decreasing_by exact Nat.div_lt_self (by omega) (by omega)

def ofDigits (base : Nat) (digits : List Nat) : Nat := digits.foldl (fun n d => n * base + d) 0

def encode (b : Bytes) : Text :=
  let zeros := (b.takeWhile (· == 0)).length
  List.replicate zeros (digit 0) ++ (digitsOnto 58 b.toNat []).map digit

def decode? (t : Text) : Option Bytes :=
  match t.mapM value? with
  | none => none
  | some values =>
    let zeros := (values.takeWhile (· == 0)).length
    some (List.replicate zeros 0 ++ (digitsOnto 256 (ofDigits 58 values) []).map UInt8.ofNat)

end Base58
end SealedEnvelope
