import Strongbox.Curve25519.Field

/-! The twisted Edwards form, in extended coordinates, with the 32-byte encoding
of points. -/

namespace Strongbox.Curve25519

open Curve25519.Field

/-- A point `(x / z, y / z)` with `x * y = z * t`. -/
structure Point where
  x : Nat
  y : Nat
  z : Nat
  t : Nat

namespace Point

/-- The curve's coefficient, -121665/121666. -/
def d : Nat := mul (neg 121665) (inverse 121666)

def identity : Point := ⟨0, 1, 1, 0⟩

def ofAffine (x y : Nat) : Point := ⟨x, y, 1, mul x y⟩

/-- Addition, complete on the whole curve; `k` is twice the coefficient. -/
def addWith (k : Nat) (p q : Point) : Point :=
  let a := mul (sub p.y p.x) (sub q.y q.x)
  let b := mul (add p.y p.x) (add q.y q.x)
  let c := mul (mul p.t k) q.t
  let e := mul (add p.z p.z) q.z
  let f := sub b a
  let g := sub e c
  let h := add e c
  let i := add b a
  ⟨mul f g, mul h i, mul g h, mul f i⟩

def double (p : Point) : Point :=
  let a := square p.x
  let b := square p.y
  let c := mul 2 (square p.z)
  let e := add a b
  let f := sub e (square (add p.x p.y))
  let g := sub a b
  let h := add c g
  ⟨mul f h, mul e g, mul h g, mul f e⟩

def neg (p : Point) : Point := ⟨Field.neg p.x, p.y, p.z, Field.neg p.t⟩

def add (p q : Point) : Point := addWith (mul 2 d) p q

/-- A multiple of a point, by the 256 low bits of the scalar. -/
def multiply (scalar : Nat) (p : Point) : Point :=
  let k := mul 2 d
  (List.range 256).reverse.foldl
    (fun acc i => if scalar.testBit i then addWith k acc.double p else acc.double) identity

def isIdentity (p : Point) : Bool := p.x = 0 && p.y = p.z

/-- The multiples of a point of small order by eight vanish. -/
def isSmallOrder (p : Point) : Bool := p.double.double.double.isIdentity

/-- The encoding: the affine `y`, with the parity of `x` in the highest bit. -/
def encode (p : Point) : ByteVec 32 :=
  let i := inverse p.z
  ByteVec.ofNatLE 32 (mul p.y i + mul p.x i % 2 * Nat.pow 2 255)

/-- The `y` that an encoding holds, before reduction. -/
def encodedY (b : ByteVec 32) : Nat := b.toNatLE % Nat.pow 2 255

/-- The point of an encoding. The `y` may be any number below 2^255 that is the
coordinate of a point. -/
def decode? (b : ByteVec 32) : Option Point :=
  let y := encodedY b % prime
  let yy := square y
  (sqrtRatio? (sub yy 1) (Field.add (mul d yy) 1)).map fun r =>
    ofAffine (if r % 2 = b.toNatLE / Nat.pow 2 255 then r else Field.neg r) y

/-- The base point has `y = 4/5` and an even `x`. -/
def base : Point := (decode? (ByteVec.ofNatLE 32 (mul 4 (inverse 5)))).getD identity

end Point

end Strongbox.Curve25519
