import Strongbox.Bytes

/-! Arithmetic modulo 2^255 - 19, on natural numbers below the modulus. -/

namespace Strongbox.Curve25519

def prime : Nat := Nat.pow 2 255 - 19

namespace Field

def add (a b : Nat) : Nat := (a + b) % prime

def sub (a b : Nat) : Nat := (a + prime - b) % prime

def mul (a b : Nat) : Nat := a * b % prime

def square (a : Nat) : Nat := mul a a

def neg (a : Nat) : Nat := sub 0 a

/-- Powers by the 255 low bits of the exponent, highest first. -/
def pow (a e : Nat) : Nat :=
  (List.range 255).reverse.foldl
    (fun acc i => if e.testBit i then mul (square acc) a else square acc) 1

/-- The inverse by Fermat's little theorem; zero for zero. -/
def inverse (a : Nat) : Nat := pow a (prime - 2)

def rootOfMinusOne : Nat := pow 2 ((prime - 1) / 4)

/-- A square root of `u / v`, if there is one. -/
def sqrtRatio? (u v : Nat) : Option Nat :=
  let v3 := mul (square v) v
  let r := mul (mul u v3) (pow (mul u (mul (square v3) v)) ((prime - 5) / 8))
  let check := mul v (square r)
  if check = u then some r
  else if check = neg u then some (mul r rootOfMinusOne)
  else none

end Field

/-- A scalar as key agreement and signing use it: a multiple of eight, with bit 254
set and bit 255 clear. -/
def clamp (b : Bytes) : Nat :=
  let n := Bytes.toNatLE (b.take 32) % Nat.pow 2 254
  n - n % 8 + Nat.pow 2 254

end Strongbox.Curve25519
