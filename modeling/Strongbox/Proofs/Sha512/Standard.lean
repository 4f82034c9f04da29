import Strongbox.Proofs.Sha512.Layout
import Strongbox.Proofs.Sha512.Streaming

/-! # The digest byte by byte

FIPS 180-4 closes a message with a mark, as few zeros as it can and the length in bits, folds
the blocks into the initial words, and writes these out in order, each with its highest byte
first. This leaves no byte of the digest open. -/

namespace Strongbox.Sha512

/-! ## The ending -/

/-- `ending` completes a string of `pending` bytes, the last of `total`: a mark, as few zeros
as fill the block, and the number of bits, as far as sixteen bytes hold it. -/
def Closes (pending total : Nat) (ending : Bytes) : Prop :=
  ∃ zeros, (pending + 1 + zeros + 16) % blockBytes = 0 ∧
    (∀ fewer < zeros, (pending + 1 + fewer + 16) % blockBytes ≠ 0) ∧
    ending = 0x80 :: (Bytes.zeros zeros ++ Bytes.ofNatBE 16 (8 * total % 2 ^ 128))

theorem closes_padding {pending total : Nat} (h : pending % blockBytes = total % blockBytes) :
    Closes pending total (padding total) := by
  refine ⟨paddingZeros total, ?_, ?_, ?_⟩
  · have hwhole := length_padding_mod total
    simp only [padding, List.length_cons, List.length_append, Bytes.length_zeros,
      Bytes.length_ofNatBE, blockBytes] at *
    omega
  · intro fewer hfewer hwhole
    have hleast : paddingZeros total ≤ fewer := by
      apply paddingZeros_le
      simp only [blockBytes] at *
      omega
    omega
  · rw [padding, ← Bytes.ofNatBE_mod 16 (8 * total)]
    rfl

/-- There is only one such ending: of two, neither has fewer zeros. -/
theorem Closes.unique {pending total : Nat} {ending ending' : Bytes}
    (h : Closes pending total ending) (h' : Closes pending total ending') : ending = ending' := by
  obtain ⟨zeros, hwhole, hleast, rfl⟩ := h
  obtain ⟨zeros', hwhole', hleast', rfl⟩ := h'
  rcases Nat.lt_trichotomy zeros zeros' with hlt | rfl | hgt
  · exact absurd hwhole (hleast' zeros hlt)
  · rfl
  · exact absurd hwhole' (hleast zeros' hgt)

/-! ## The words written out -/

/-- Each byte of the words in its place. Of every word, the highest byte comes first. -/
def Chaining.ShownIn (s : Chaining) (b : Bytes) : Prop :=
  ∀ {i w}, s.words[i]? = some w → ∀ j < 8,
    b[8 * i + j]? = some (Bytes.byteAt w.toNat (7 - j))

theorem Chaining.shownIn_digest (s : Chaining) : s.ShownIn s.digest.toList :=
  fun h _ hj => getElem?_digest h hj

/-- Every place of a digest belongs to one of the words. -/
theorem Chaining.ShownIn.unique {s : Chaining} {d d' : Digest} (h : s.ShownIn d.toList)
    (h' : s.ShownIn d'.toList) : d = d' := by
  have hplace (k : Nat) (hk : k < 64) : d.toList[k]? = d'.toList[k]? := by
    have hsplit : k = 8 * (k / 8) + k % 8 := (Nat.div_add_mod k 8).symm
    have hindex : k / 8 < s.words.length := Nat.div_lt_of_lt_mul hk
    have hj := Nat.mod_lt k (show 0 < 8 by decide)
    have hw := List.getElem?_eq_getElem hindex
    rw [hsplit, h hw _ hj, h' hw _ hj]
  refine congrArg Digest.mk (ByteVec.ext (List.ext_getElem? ?_))
  intro k
  rcases Nat.lt_or_ge k 64 with hk | hk
  · exact hplace k hk
  · rw [List.getElem?_eq_none (by rwa [ByteVec.length_toList]),
      List.getElem?_eq_none (by rwa [ByteVec.length_toList])]

/-! ## The digest of a message -/

/-- What the standard gives for a message, in terms of its compression function. -/
def StandardDigest (f : Compress) (message : Bytes) (digest : Digest) : Prop :=
  ∃ ending, Closes message.length message.length ending ∧
    (foldBlocks f .initial (message ++ ending)).ShownIn digest.toList

/-- The function that runs computes it, and nothing else meets the standard. -/
theorem standardDigest_iff {f : Compress} {message : Bytes} {d : Digest} :
    StandardDigest f message d ↔ d = digest f message := by
  have hcloses : Closes message.length message.length (padding message.length) :=
    closes_padding rfl
  constructor
  · rintro ⟨ending, hending, hshown⟩
    obtain rfl := hending.unique hcloses
    exact hshown.unique (Chaining.shownIn_digest _)
  · rintro rfl
    exact ⟨_, hcloses, Chaining.shownIn_digest _⟩

/-- The standard leaves no choice. -/
theorem StandardDigest.unique {f : Compress} {message : Bytes} {d d' : Digest}
    (h : StandardDigest f message d) (h' : StandardDigest f message d') : d = d' := by
  rw [standardDigest_iff] at h h'
  rw [h, h']

/-- The digest of the three letters `abc`, as the examples of the standard give it. -/
def abcDigest : Digest := ⟨⟨[
  0xdd, 0xaf, 0x35, 0xa1, 0x93, 0x61, 0x7a, 0xba, 0xcc, 0x41, 0x73, 0x49, 0xae, 0x20, 0x41, 0x31,
  0x12, 0xe6, 0xfa, 0x4e, 0x89, 0xa9, 0x7e, 0xa2, 0x0a, 0x9e, 0xee, 0xe6, 0x4b, 0x55, 0xd3, 0x9a,
  0x21, 0x92, 0x99, 0x2a, 0x27, 0x4f, 0xc1, 0xa8, 0x36, 0xba, 0x3c, 0x23, 0xa3, 0xfe, 0xeb, 0xbd,
  0x45, 0x4d, 0x44, 0x23, 0x64, 0x3c, 0xe8, 0x0e, 0x2a, 0x9a, 0xc9, 0x4f, 0xa5, 0x4c, 0xa4, 0x9f],
  rfl⟩⟩

theorem standardDigest_abc : StandardDigest compress [97, 98, 99] abcDigest := by
  rw [standardDigest_iff]
  decide +kernel

end Strongbox.Sha512
