/-! Byte lengths of the box, signature and digest formats. Only the length of a
hash state may differ from one provider to another. -/

namespace Strongbox.Size

@[simp] abbrev boxPublicKey : Nat := 32
@[simp] abbrev boxSecretKey : Nat := 32
@[simp] abbrev symmetricKey : Nat := 32
@[simp] abbrev nonce : Nat := 24

/-- The zero bytes in front of a box message. -/
@[simp] abbrev padding : Nat := 32

/-- The zero bytes in front of a sealed box, before its tag. -/
@[simp] abbrev sealedPadding : Nat := 16

/-- The authentication tag fills the rest of the padding. -/
@[simp] abbrev tag : Nat := padding - sealedPadding

@[simp] abbrev signPublicKey : Nat := 32
@[simp] abbrev signSecretKey : Nat := 64
@[simp] abbrev seed : Nat := 32
@[simp] abbrev signature : Nat := 64
@[simp] abbrev digest : Nat := 64

/-- Eight chaining words, a two-word counter and one 128-byte block. -/
@[simp] abbrev hashState : Nat := 8 * 8 + 2 * 8 + 128

end Strongbox.Size
