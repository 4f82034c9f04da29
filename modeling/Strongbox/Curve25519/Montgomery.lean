import Strongbox.Curve25519.Field

/-! X25519: scalar multiplication on the Montgomery form, by u-coordinates. -/

namespace Strongbox.Curve25519

open Curve25519.Field

/-- Two neighbouring multiples of a point in projective coordinates. -/
structure Ladder where
  x2 : Nat
  z2 : Nat
  x3 : Nat
  z3 : Nat

/-- Doubles the first point and adds the two, whose difference has coordinate `u`. -/
def Ladder.step (u : Nat) (l : Ladder) : Ladder :=
  let a := add l.x2 l.z2
  let b := sub l.x2 l.z2
  let aa := square a
  let bb := square b
  let e := sub aa bb
  let da := mul (sub l.x3 l.z3) a
  let cb := mul (add l.x3 l.z3) b
  { x2 := mul aa bb
    z2 := mul e (add aa (mul 121665 e))
    x3 := square (add da cb)
    z3 := mul u (square (sub da cb)) }

def Ladder.swap (l : Ladder) : Ladder := ⟨l.x3, l.z3, l.x2, l.z2⟩

def Ladder.bit (u : Nat) (l : Ladder) (b : Bool) : Ladder :=
  if b then (l.swap.step u).swap else l.step u

/-- The u-coordinate of a multiple of the point with coordinate `u`. -/
def multiplyU (scalar u : Nat) : Nat :=
  let start : Ladder := ⟨1, 0, u, 1⟩
  let l := (List.range 255).reverse.foldl (fun l i => l.bit u (scalar.testBit i)) start
  mul l.x2 (inverse l.z2)

/-- The shared coordinate of a secret scalar and a peer's coordinate, whose highest
bit is ignored. -/
def x25519 (secret u : ByteVec 32) : ByteVec 32 :=
  ByteVec.ofNatLE 32 (multiplyU (clamp secret.toList) (u.toNatLE % Nat.pow 2 255 % prime))

def baseU : ByteVec 32 := ByteVec.ofNatLE 32 9

end Strongbox.Curve25519
