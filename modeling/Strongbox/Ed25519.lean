import Strongbox.Curve25519.Edwards
import Strongbox.Sha512.Padding

/-! Ed25519 signatures. Verification is strict: it refuses scalars that are not
reduced and points of small order. -/

namespace Strongbox.Ed25519

open Curve25519

def order : Nat := Nat.pow 2 252 + 27742317777372353535851937790883648493

def hash (b : Bytes) : Bytes := (Sha512.digest Sha512.compress b).toList

def scalarOf (b : Bytes) : Nat := Bytes.toNatLE (hash b) % order

def basePoint : Point := Point.base

def publicKey (seed : SignSeed) : SignPublicKey :=
  ⟨(basePoint.multiply (clamp (hash seed.toList))).encode⟩

def sign (seed : SignSeed) (message : Bytes) : Signature :=
  let expanded := hash seed.toList
  let a := clamp expanded
  let r := scalarOf (expanded.drop 32 ++ message)
  let point := (basePoint.multiply r).encode
  let k := scalarOf (point.toList ++ (publicKey seed).toList ++ message)
  ⟨point.append (ByteVec.ofNatLE 32 ((r + k * a) % order))⟩

/-- Which spellings of a public key verification takes. -/
inductive KeySpelling where
  /-- Only the reduced one. -/
  | reduced
  /-- Any that names a point. -/
  | any
deriving DecidableEq, Repr

def KeySpelling.admits : KeySpelling → SignPublicKey → Bool
  | .reduced, pk => Point.encodedY pk.toByteVec < prime
  | .any, _ => true

/-- Whether a signature holds for a message under a public key. -/
def accepts (spelling : KeySpelling) (pk : SignPublicKey) (message : Bytes)
    (signature : Signature) : Bool :=
  let point := signature.first 32
  let s := Bytes.toNatLE (signature.toList.drop 32)
  match Point.decode? pk.toByteVec, Point.decode? point with
  | some a, some r =>
    let k := scalarOf (point.toList ++ pk.toList ++ message)
    spelling.admits pk && s < order && !r.isSmallOrder && !a.isSmallOrder
      && ((basePoint.multiply s).add (a.neg.multiply k)).encode = point
  | _, _ => false

end Strongbox.Ed25519
