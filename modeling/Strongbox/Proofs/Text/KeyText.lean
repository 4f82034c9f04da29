import Mathlib.Data.Char
import Mathlib.Data.List.TakeWhile
import Strongbox.Command.KeyText
import Strongbox.Proofs.Runs

/-! # Keys as text

A text is accepted exactly if, without blanks around it and in lower case, it is what bytes
are encoded as. -/

namespace Strongbox.Hex

/-! ## Digits -/

theorem toNat_toLower (c : Char) :
    c.toLower.toNat = if 65 ≤ c.toNat ∧ c.toNat ≤ 90 then c.toNat + 32 else c.toNat := by
  have hrange : (c.val ≥ 'A'.val ∧ c.val ≤ 'Z'.val) ↔ 65 ≤ c.toNat ∧ c.toNat ≤ 90 := Iff.rfl
  delta Char.toLower
  split_ifs with hupper hlower hlower
  · have hval : (c.val + ('a'.val - 'A'.val)).toNat = c.toNat + 32 := by
      have hle : c.val.toNat ≤ 90 := (hrange.mp hupper).2
      rw [UInt32.toNat_add]
      change (c.val.toNat + 32) % 2 ^ 32 = c.val.toNat + 32
      omega
    exact hval
  · exact absurd (hrange.mp hupper) hlower
  · exact absurd (hrange.mpr hlower) hupper
  · rfl

theorem toNat_digit : ∀ n < 16, (digit n).toNat = if n < 10 then 48 + n else 87 + n := by
  decide

theorem valueOfCode?_lt {k n : Nat} (h : valueOfCode? k = some n) : n < 16 := by
  rw [valueOfCode?] at h
  split_ifs at h <;> obtain rfl := Option.some.inj h <;> omega

/-- A character has the value of a digit if it is that digit in lower case. -/
theorem valueOfCode?_eq_some_iff {c : Char} {n : Nat} (h : n < 16) :
    valueOfCode? c.toNat = some n ↔ c.toLower = digit n := by
  rw [← Char.toNat_inj, toNat_toLower, toNat_digit n h, valueOfCode?]
  split_ifs <;> simp <;> omega

/-- The values of the two digits of a byte. -/
def halves (b : UInt8) : List Nat := [b.toNat / 16, b.toNat % 16]

theorem lt_of_mem_halves {out : Bytes} {n : Nat} (h : n ∈ out.flatMap halves) : n < 16 := by
  obtain ⟨b, -, hn⟩ := List.mem_flatMap.mp h
  have hb := b.toNat_lt
  simp only [halves, List.mem_cons, List.not_mem_nil, or_false] at hn
  omega

theorem length_flatMap_halves (out : Bytes) :
    (out.flatMap halves).length = 2 * out.length := by
  induction out with
  | nil => rfl
  | cons b bytes ih =>
      rw [List.flatMap_cons, List.length_append, ih, List.length_cons]
      simp only [halves, List.length_cons, List.length_nil]
      omega

theorem flatMap_pair (out : Bytes) : out.flatMap pair = (out.flatMap halves).map digit := by
  rw [List.map_flatMap]
  rfl

theorem map_valueOfCode?_iff (cs : List Char) (out : Bytes) :
    cs.map (fun c => valueOfCode? c.toNat) = (out.flatMap halves).map some ↔
      cs.map Char.toLower = out.flatMap pair := by
  have hvalues (ns : List Nat) (hns : ∀ n ∈ ns, n < 16) :
      cs.map (fun c => valueOfCode? c.toNat) = ns.map some ↔
        cs.map Char.toLower = ns.map digit := by
    induction cs generalizing ns with
    | nil => cases ns <;> simp
    | cons c cs ih =>
        cases ns with
        | nil => simp
        | cons n ns =>
            have hn := hns n List.mem_cons_self
            have hrest := ih ns fun m hm => hns m (List.mem_cons_of_mem n hm)
            simp [valueOfCode?_eq_some_iff hn, hrest]
  rw [flatMap_pair]
  exact hvalues _ fun n => lt_of_mem_halves

/-! ## Bytes of digits -/

/-- Two values below sixteen are the halves of one byte. -/
theorem halves_eq_iff {b : UInt8} {h l : Nat} (hh : h < 16) (hl : l < 16) :
    (b.toNat / 16 = h ∧ b.toNat % 16 = l) ↔ b = UInt8.ofNat (16 * h + l) := by
  rw [← UInt8.toNat_inj, UInt8.toNat_ofNat']
  have hb := b.toNat_lt
  omega

theorem value?_lt {b : UInt8} {n : Nat} (h : value? b = some n) : n < 16 := valueOfCode?_lt h

/-- Pairs of digits are decoded exactly to the bytes with these halves. -/
theorem decodePairs_ok_iff (position : Nat) (text out : Bytes) (heven : text.length % 2 = 0) :
    decodePairs position text = .ok out ↔ text.map value? = (out.flatMap halves).map some := by
  induction position, text using decodePairs.induct generalizing out with
  | case1 position high low rest ih =>
      have hrest : rest.length % 2 = 0 := by
        simp only [List.length_cons] at heven
        omega
      rw [decodePairs, valueAt, valueAt]
      cases hhigh : value? high with
      | none => cases out <;> simp [hhigh, halves]
      | some h =>
          cases hlow : value? low with
          | none => cases out <;> simp [hlow, halves]
          | some l =>
              cases out with
              | nil => cases decodePairs (position + 2) rest <;> simp
              | cons b bytes =>
                  have hfirst := @halves_eq_iff b h l (value?_lt hhigh) (value?_lt hlow)
                  have hpair : (decodePairs (position + 2) rest >>= fun decoded =>
                      pure (UInt8.ofNat (16 * h + l) :: decoded)) = .ok (b :: bytes) ↔
                      b = UInt8.ofNat (16 * h + l) ∧
                        decodePairs (position + 2) rest = .ok bytes := by
                    cases decodePairs (position + 2) rest <;> simp [eq_comm]
                  simp only [ok_bind, hpair, ih bytes hrest, ← hfirst]
                  simp [hhigh, hlow, halves, and_assoc, eq_comm]
  | case2 text position hshort =>
      cases text with
      | nil => cases out <;> simp [decodePairs, halves]
      | cons x text =>
          cases text with
          | nil => simp at heven
          | cons y text => exact absurd rfl (hshort x y text)

theorem decode_ok_iff (text out : Bytes) :
    decode text = .ok out ↔ text.map value? = (out.flatMap halves).map some := by
  rw [decode]
  split_ifs with hodd
  · constructor
    · exact nofun
    · intro h
      have hlength := congrArg List.length h
      rw [List.length_map, List.length_map, length_flatMap_halves] at hlength
      omega
  · exact decodePairs_ok_iff 0 text out (by omega)

/-! ## Characters as bytes -/

/-- A character outside ASCII starts with a byte that is no digit. -/
theorem value?_utf8EncodeChar {c : Char} (h : ¬ c.toNat ≤ 127) :
    ∃ b rest, String.utf8EncodeChar c = b :: rest ∧ value? b = none ∧
      valueOfCode? c.toNat = none := by
  have hvalue (k : Nat) (hk : 128 ≤ k) : valueOfCode? k = none := by
    rw [valueOfCode?]
    split_ifs <;> first | omega | rfl
  have hfirst : ∃ b rest, String.utf8EncodeChar c = b :: rest ∧ 128 ≤ b.toNat := by
    have hc : ¬ c.val.toNat ≤ 127 := h
    rw [String.utf8EncodeChar]
    simp only [hc, if_false]
    split_ifs
    all_goals
      refine ⟨_, _, rfl, ?_⟩
      rw [UInt8.toNat_ofNat']
      omega
  obtain ⟨b, rest, hencode, hb⟩ := hfirst
  exact ⟨b, rest, hencode, hvalue _ hb, hvalue _ (by omega)⟩

theorem map_value?_encode (cs : List Char) (ns : List Nat) :
    (cs.flatMap String.utf8EncodeChar).map value? = ns.map some ↔
      cs.map (fun c => valueOfCode? c.toNat) = ns.map some := by
  induction cs generalizing ns with
  | nil => rfl
  | cons c cs ih =>
      rw [List.flatMap_cons, List.map_append, List.map_cons]
      by_cases hascii : c.toNat ≤ 127
      · have hsize : c.utf8Size = 1 := Char.utf8Size_eq_one_iff.mpr hascii
        have hcode : value? c.val.toUInt8 = valueOfCode? c.toNat := by
          have hlt : c.val.toNat < 2 ^ 8 := Nat.lt_of_le_of_lt hascii (by decide)
          rw [value?, UInt32.toNat_toUInt8, Nat.mod_eq_of_lt hlt]
          rfl
        rw [String.utf8EncodeChar_eq_singleton hsize, List.map_singleton, hcode]
        cases ns with
        | nil => simp
        | cons n ns => simp [ih ns]
      · obtain ⟨b, rest, hencode, hb, hc⟩ := value?_utf8EncodeChar hascii
        rw [hencode, List.map_cons, hb, hc]
        cases ns <;> simp

/-- A text decodes exactly to the bytes whose encoding it is in lower case. -/
theorem decode_encode_ok_iff (s : String) (out : Bytes) :
    decode (Text.encode s) = .ok out ↔ s.toList.map Char.toLower = out.flatMap pair := by
  rw [decode_ok_iff, Text.encode, map_value?_encode, map_valueOfCode?_iff]

/-! ## Blanks -/

/-- The text spells the bytes: digits of either case, with blanks around them. -/
def Spells (text : String) (out : Bytes) : Prop :=
  ∃ front digits back, text.toList = front ++ digits ++ back ∧
    (∀ c ∈ front, Text.isBlank c = true) ∧ (∀ c ∈ back, Text.isBlank c = true) ∧
    digits.map Char.toLower = out.flatMap pair

theorem not_isBlank_of_value {c : Char} {n : Nat} (h : valueOfCode? c.toNat = some n) :
    Text.isBlank c = false := by
  have hcode : 48 ≤ c.toNat ∧ c.toNat ≤ 102 := by
    rw [valueOfCode?] at h
    split_ifs at h <;> omega
  simp [Text.isBlank]
  omega

theorem not_isBlank_of_mem_digits {digits : List Char} {out : Bytes}
    (h : digits.map Char.toLower = out.flatMap pair) {c : Char} (hc : c ∈ digits) :
    Text.isBlank c = false := by
  rw [← map_valueOfCode?_iff] at h
  have hmem := List.mem_map_of_mem (f := fun c => valueOfCode? c.toNat) hc
  rw [h] at hmem
  obtain ⟨n, -, hn⟩ := List.mem_map.mp hmem
  exact not_isBlank_of_value hn.symm

end Strongbox.Hex

namespace Strongbox.Text

/-- Without the blanks in front, a text is what trimming leaves and the blanks behind. -/
theorem dropWhile_eq_trimmed_append (cs : List Char) :
    cs.dropWhile isBlank =
      trimmed cs ++ ((cs.dropWhile isBlank).reverse.takeWhile isBlank).reverse := by
  rw [trimmed, ← List.reverse_append, List.takeWhile_append_dropWhile, List.reverse_reverse]

/-- Trimming takes the blanks off both ends, and nothing else. -/
theorem exists_blanks_around (cs : List Char) :
    ∃ front back, cs = front ++ trimmed cs ++ back ∧ (∀ c ∈ front, isBlank c = true) ∧
      ∀ c ∈ back, isBlank c = true := by
  refine ⟨cs.takeWhile isBlank, ((cs.dropWhile isBlank).reverse.takeWhile isBlank).reverse,
    ?_, ?_, ?_⟩
  · rw [List.append_assoc, ← dropWhile_eq_trimmed_append]
    exact List.takeWhile_append_dropWhile.symm
  · exact fun c hc => List.mem_takeWhile_imp hc
  · exact fun c hc => List.mem_takeWhile_imp (List.mem_reverse.mp hc)

theorem dropWhile_isBlank_append {cs back : List Char} (hne : cs ≠ [])
    (hhead : ∀ c ∈ cs.head?, isBlank c = false) :
    (cs ++ back).dropWhile isBlank = cs ++ back := by
  cases cs with
  | nil => exact absurd rfl hne
  | cons c cs =>
      have hc : ¬ isBlank c = true := by simp [hhead c rfl]
      rw [List.cons_append, List.dropWhile_cons_of_neg hc]

theorem trimmed_of_blanks_around {front cs back : List Char}
    (hfront : ∀ c ∈ front, isBlank c = true) (hback : ∀ c ∈ back, isBlank c = true)
    (hhead : ∀ c ∈ cs.head?, isBlank c = false) (hlast : ∀ c ∈ cs.getLast?, isBlank c = false) :
    trimmed (front ++ cs ++ back) = cs := by
  rw [trimmed, List.append_assoc, List.dropWhile_append_of_pos hfront]
  by_cases hnil : cs = []
  · subst hnil
    rw [List.nil_append, List.dropWhile_eq_nil_iff.mpr hback]
    rfl
  · have hreverse : ∀ c ∈ cs.reverse.head?, isBlank c = false := by rwa [List.head?_reverse]
    have hdrop := @dropWhile_isBlank_append cs.reverse [] (by simpa using hnil) hreverse
    rw [List.append_nil] at hdrop
    rw [dropWhile_isBlank_append hnil hhead, List.reverse_append,
      List.dropWhile_append_of_pos fun c hc => hback c (List.mem_reverse.mp hc), hdrop,
      List.reverse_reverse]

end Strongbox.Text

namespace Strongbox

theorem Hex.decode_trim_ok_iff (text : String) (out : Bytes) :
    Hex.decode (Text.encode (Text.trim text)) = .ok out ↔ Hex.Spells text out := by
  rw [Hex.decode_encode_ok_iff, Text.toList_trim]
  constructor
  · intro h
    obtain ⟨front, back, htext, hfront, hback⟩ := Text.exists_blanks_around text.toList
    exact ⟨front, Text.trimmed text.toList, back, htext, hfront, hback, h⟩
  · rintro ⟨front, digits, back, htext, hfront, hback, h⟩
    have hplain (c : Char) (hc : c ∈ digits) : Text.isBlank c = false :=
      Hex.not_isBlank_of_mem_digits h hc
    rw [htext, Text.trimmed_of_blanks_around hfront hback
      (fun c hc => hplain c (List.mem_of_mem_head? hc))
      (fun c hc => hplain c (List.mem_of_mem_getLast? hc)), h]

/-- A text is accepted exactly for the bytes that it spells, if they have the right length. -/
theorem KeyText.decode_ok_iff {n : Nat} {text what : String} {v : ByteVec n} :
    KeyText.decode n text what = .ok v ↔ Hex.Spells text v.toList := by
  rw [← Hex.decode_trim_ok_iff, KeyText.decode]
  cases hdecode : Hex.decode (Text.encode (Text.trim text)) with
  | error e => simp
  | ok bytes =>
      simp only [ByteVec.ofList?, Except.ok.injEq]
      split_ifs with hlength
      · simp only [Except.ok.injEq]
        exact ⟨fun h => h ▸ rfl, fun h => ByteVec.ext h⟩
      · constructor
        · intro h
          cases h
        · intro h
          exact absurd (h ▸ v.length_toList) hlength

/-- What is written for bytes spells them. -/
theorem Hex.spells_encode (out : Bytes) : Hex.Spells (Hex.encode out) out := by
  refine ⟨[], out.flatMap Hex.pair, [], by simp [Hex.encode], nofun, nofun, ?_⟩
  have hlower : ∀ n < 16, (Hex.digit n).toLower = Hex.digit n := by decide
  rw [Hex.flatMap_pair, List.map_map]
  apply List.map_congr_left
  exact fun n hn => hlower n (Hex.lt_of_mem_halves hn)

/-- The lower-case digits, as they are written. -/
def KeyText.digits : Bytes := Text.encode "0123456789abcdef"

theorem Hex.utf8EncodeChar_digit :
    ∀ n < 16, ∃ b, KeyText.digits[n]? = some b ∧ String.utf8EncodeChar (Hex.digit n) = [b] := by
  decide

/-- Each byte is written as the digits of its halves, the high one first. -/
theorem KeyText.encode_cons (b : UInt8) (out : Bytes) :
    ∃ high low, KeyText.digits[b.toNat / 16]? = some high ∧
      KeyText.digits[b.toNat % 16]? = some low ∧
      KeyText.encode (b :: out) = high :: low :: KeyText.encode out := by
  have hb := b.toNat_lt
  obtain ⟨high, hhigh, hencodeHigh⟩ := Hex.utf8EncodeChar_digit (b.toNat / 16) (by omega)
  obtain ⟨low, hlow, hencodeLow⟩ := Hex.utf8EncodeChar_digit (b.toNat % 16) (by omega)
  refine ⟨high, low, hhigh, hlow, ?_⟩
  simp only [KeyText.encode, Hex.encode, Text.encode, String.toList_ofList, List.flatMap_cons,
    List.flatMap_append, Hex.pair, List.flatMap_nil, hencodeHigh, hencodeLow]
  rfl

/-- The text gives two lower-case digits for each of the bytes, in their order, that of the high
half first. -/
structure KeyText.Shows (text bytes : Bytes) : Prop where
  length : text.length = 2 * bytes.length
  high : ∀ {i b}, bytes[i]? = some b → text[2 * i]? = KeyText.digits[b.toNat / 16]?
  low : ∀ {i b}, bytes[i]? = some b → text[2 * i + 1]? = KeyText.digits[b.toNat % 16]?

theorem KeyText.shows_encode (bytes : Bytes) : KeyText.Shows (KeyText.encode bytes) bytes := by
  induction bytes with
  | nil => exact ⟨rfl, nofun, nofun⟩
  | cons b bytes ih =>
      obtain ⟨high, low, hhigh, hlow, hencode⟩ := KeyText.encode_cons b bytes
      rw [hencode]
      refine ⟨?_, ?_, ?_⟩
      · rw [List.length_cons, List.length_cons, ih.length, List.length_cons, Nat.mul_succ]
      · intro i c hc
        cases i with
        | zero =>
            cases hc
            exact hhigh.symm
        | succ i => exact ih.high hc
      · intro i c hc
        cases i with
        | zero =>
            cases hc
            exact hlow.symm
        | succ i => exact ih.low hc

/-- Two lower-case digits are written for each byte. -/
theorem KeyText.encode_digits (out : Bytes) :
    (KeyText.encode out).length = 2 * out.length ∧
      ∀ b ∈ KeyText.encode out, b ∈ KeyText.digits := by
  refine ⟨(KeyText.shows_encode out).length, ?_⟩
  induction out with
  | nil => nofun
  | cons b out ih =>
      obtain ⟨high, low, hhigh, hlow, hencode⟩ := KeyText.encode_cons b out
      rw [hencode, List.forall_mem_cons, List.forall_mem_cons]
      exact ⟨List.mem_of_getElem? hhigh, List.mem_of_getElem? hlow, ih⟩

theorem Text.decode?_eq_some_iff {bytes : Bytes} {text : String} :
    Text.decode? bytes = some text ↔ bytes = Text.encode text := by
  constructor
  · intro h
    have hbytes : text.toByteArray = bytes.toByteArray := by
      rw [Text.decode?, String.fromUTF8?] at h
      split at h
      · obtain rfl := Option.some.inj h
        rfl
      · cases h
    have hencode := Text.toByteArray_encode text
    rw [hbytes] at hencode
    exact (List.toByteArray_inj.mp hencode).symm
  · rintro rfl
    exact Text.decode?_encode text

end Strongbox
