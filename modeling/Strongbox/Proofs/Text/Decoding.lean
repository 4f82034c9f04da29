import Strongbox.Proofs.Text.KeyText

/-! # How a key text is decoded

The white space around a text does not count. What is left is decoded if it is made of as many
hexadecimal digits as were asked for; otherwise the first thing that is wrong with it is
reported: its length in bytes is odd, a byte is no digit, there are too many digits or too few. -/

namespace Strongbox

namespace Hex

/-! ## Digits and their values -/

/-- The code of a hexadecimal digit, of either case. -/
def IsDigit (k : Nat) : Prop := ∃ c ∈ "0123456789abcdefABCDEF".toList, c.toNat = k

/-- What a digit stands for, in either case. -/
def rank (c : Char) : Nat := "0123456789abcdef".toList.idxOf c.toLower

theorem rank_digit : ∀ n < 16, "0123456789abcdef".toList.idxOf (digit n) = n := by
  decide +kernel

theorem isDigit_iff {k : Nat} : IsDigit k ↔ ∃ n, valueOfCode? k = some n := by
  constructor
  · rintro ⟨c, hc, rfl⟩
    have hvalues : "0123456789abcdefABCDEF".toList.all
        (fun c => (valueOfCode? c.toNat).isSome) = true := by decide +kernel
    exact Option.isSome_iff_exists.mp (List.all_eq_true.mp hvalues c hc)
  · rintro ⟨n, hn⟩
    have hcode : k ≤ 102 := by
      rw [valueOfCode?] at hn
      split_ifs at hn <;> omega
    have hcodes : ∀ k < 103, (valueOfCode? k).isSome →
        "0123456789abcdefABCDEF".toList.any (fun c => c.toNat == k) = true := by decide +kernel
    obtain ⟨c, hc, hk⟩ := List.any_eq_true.mp
      (hcodes k (Nat.lt_succ_of_le hcode) (by rw [hn, Option.isSome_some]))
    exact ⟨c, hc, beq_iff_eq.mp hk⟩

theorem valueOfCode?_iff_rank {c : Char} {n : Nat} :
    valueOfCode? c.toNat = some n ↔ IsDigit c.toNat ∧ rank c = n := by
  have hrank {m : Nat} (h : valueOfCode? c.toNat = some m) : rank c = m := by
    have hm := valueOfCode?_lt h
    rw [rank, (valueOfCode?_eq_some_iff hm).mp h, rank_digit m hm]
  constructor
  · intro h
    exact ⟨isDigit_iff.mpr ⟨n, h⟩, hrank h⟩
  · rintro ⟨hdigit, rfl⟩
    obtain ⟨m, hm⟩ := isDigit_iff.mp hdigit
    rw [hm, hrank hm]

/-- Characters have the values of digits if they are digits of these ranks. -/
theorem map_valueOfCode?_iff_rank {cs : List Char} {ns : List Nat} :
    cs.map (fun c => valueOfCode? c.toNat) = ns.map some ↔
      (∀ c ∈ cs, IsDigit c.toNat) ∧ cs.map rank = ns := by
  induction cs generalizing ns with
  | nil => cases ns <;> simp
  | cons c cs ih =>
      cases ns with
      | nil => simp
      | cons n ns =>
          simp only [List.map_cons, List.cons.injEq, List.forall_mem_cons,
            valueOfCode?_iff_rank, ih]
          exact and_and_and_comm

/-! ## The first fault in a string of pairs -/

theorem valueAt_of_isDigit {b : UInt8} (h : IsDigit b.toNat) (position : Nat) :
    ∃ n, valueAt position b = .ok n := by
  obtain ⟨n, hn⟩ := isDigit_iff.mp h
  exact ⟨n, by rw [valueAt, value?, hn]⟩

theorem valueAt_of_not_isDigit {b : UInt8} (h : ¬ IsDigit b.toNat) (position : Nat) :
    valueAt position b = .error (.invalidByte b position) := by
  have hnone : value? b = none := by
    rw [Option.eq_none_iff_forall_ne_some]
    exact fun n hn => h (isDigit_iff.mpr ⟨n, hn⟩)
  rw [valueAt, hnone]

/-- Pairs of digits are decoded. -/
theorem decodePairs_of_digits (position : Nat) (text : Bytes)
    (h : ∀ b ∈ text, IsDigit b.toNat) : ∃ out, decodePairs position text = .ok out := by
  induction position, text using decodePairs.induct with
  | case1 position high low rest ih =>
      obtain ⟨hhigh, hlow, hrest⟩ := by simpa only [List.forall_mem_cons] using h
      obtain ⟨m, hm⟩ := valueAt_of_isDigit hhigh position
      obtain ⟨n, hn⟩ := valueAt_of_isDigit hlow (position + 1)
      obtain ⟨out, hout⟩ := ih hrest
      exact ⟨_, by rw [decodePairs, hm, hn, hout]; rfl⟩
  | case2 position text hshort => exact ⟨[], by rw [decodePairs.eq_2 _ _ hshort]⟩

/-- The first byte that is no digit is reported, with its position. -/
theorem decodePairs_of_fault {b : UInt8} (hb : ¬ IsDigit b.toNat) {back : Bytes} :
    ∀ (position : Nat) (front : Bytes), (∀ d ∈ front, IsDigit d.toNat) →
      (front ++ b :: back).length % 2 = 0 →
      decodePairs position (front ++ b :: back) =
        .error (.invalidByte b (position + front.length))
  | position, [], _, heven => by
    cases back with
    | nil => cases heven
    | cons low rest =>
        rw [List.nil_append, decodePairs, valueAt_of_not_isDigit hb]
        rfl
  | position, [high], hfront, _ => by
    obtain ⟨m, hm⟩ := valueAt_of_isDigit (hfront high List.mem_cons_self) position
    rw [List.singleton_append, decodePairs, hm, valueAt_of_not_isDigit hb]
    rfl
  | position, high :: low :: front, hfront, heven => by
    simp only [List.forall_mem_cons] at hfront
    obtain ⟨hhigh, hlow, hfront⟩ := hfront
    obtain ⟨m, hm⟩ := valueAt_of_isDigit hhigh position
    obtain ⟨n, hn⟩ := valueAt_of_isDigit hlow (position + 1)
    simp only [List.cons_append, List.length_cons] at heven
    have heven' : (front ++ b :: back).length % 2 = 0 := by omega
    have hrest := decodePairs_of_fault hb (position + 2) front hfront heven'
    rw [List.cons_append, List.cons_append, decodePairs, hm, hn, hrest]
    rw [List.length_cons, List.length_cons, Nat.add_assoc, Nat.add_comm 2]
    rfl

/-- A byte string is made of digits, or there is a first byte in it that is no digit. -/
theorem digits_or_fault (text : Bytes) :
    (∀ b ∈ text, IsDigit b.toNat) ∨ ∃ front b back, text = front ++ b :: back ∧
      (∀ d ∈ front, IsDigit d.toNat) ∧ ¬ IsDigit b.toNat := by
  induction text with
  | nil => exact .inl nofun
  | cons d text ih =>
      by_cases hd : IsDigit d.toNat
      · obtain hall | ⟨front, b, back, rfl, hfront, hb⟩ := ih
        · exact .inl (List.forall_mem_cons.mpr ⟨hd, hall⟩)
        · exact .inr ⟨d :: front, b, back, rfl, List.forall_mem_cons.mpr ⟨hd, hfront⟩, hb⟩
      · exact .inr ⟨[], d, text, rfl, nofun, hd⟩

theorem decode_of_odd {text : Bytes} (h : text.length % 2 = 1) :
    decode text = .error .oddLength := by
  rw [decode, if_pos h]

theorem decode_of_fault {front back : Bytes} {b : UInt8}
    (heven : (front ++ b :: back).length % 2 = 0) (hfront : ∀ d ∈ front, IsDigit d.toNat)
    (hb : ¬ IsDigit b.toNat) :
    decode (front ++ b :: back) = .error (.invalidByte b front.length) := by
  rw [decode, if_neg (by omega), decodePairs_of_fault hb 0 front hfront heven, Nat.zero_add]

theorem decode_of_digits {text : Bytes} (heven : text.length % 2 = 0)
    (h : ∀ b ∈ text, IsDigit b.toNat) :
    ∃ out, decode text = .ok out ∧ text.length = 2 * out.length := by
  obtain ⟨out, hout⟩ := decodePairs_of_digits 0 text h
  have hdecode : decode text = .ok out := by
    rw [decode, if_neg (by omega), hout]
  refine ⟨out, hdecode, ?_⟩
  have hlength := congrArg List.length ((decode_ok_iff text out).mp hdecode)
  rwa [List.length_map, List.length_map, length_flatMap_halves] at hlength

end Hex

namespace Text

/-! ## White space -/

/-- `t` is the text without the white space around it. -/
structure Strips (text t : String) : Prop where
  around : ∃ front back, text.toList = front ++ t.toList ++ back ∧
    (∀ c ∈ front, isBlank c = true) ∧ ∀ c ∈ back, isBlank c = true
  head : ∀ c ∈ t.toList.head?, isBlank c = false
  last : ∀ c ∈ t.toList.getLast?, isBlank c = false

theorem head_dropWhile_isBlank {cs : List Char} {c : Char}
    (h : c ∈ (cs.dropWhile isBlank).head?) : isBlank c = false := by
  have hhead := List.head?_dropWhile_not isBlank cs
  rw [Option.mem_def] at h
  rwa [h] at hhead

theorem last_trimmed {cs : List Char} {c : Char} (h : c ∈ (trimmed cs).getLast?) :
    isBlank c = false := by
  rw [trimmed, List.getLast?_reverse] at h
  exact head_dropWhile_isBlank h

theorem head_trimmed {cs : List Char} {c : Char} (h : c ∈ (trimmed cs).head?) :
    isBlank c = false := by
  have hhead : c ∈ (cs.dropWhile isBlank).head? := by
    rw [dropWhile_eq_trimmed_append, List.head?_append, Option.mem_def.mp h]
    rfl
  exact head_dropWhile_isBlank hhead

/-- Trimming is the one way to strip a text. -/
theorem strips_iff {text t : String} : Strips text t ↔ t = trim text := by
  constructor
  · rintro ⟨⟨front, back, htext, hfront, hback⟩, hhead, hlast⟩
    rw [← String.toList_inj, toList_trim, htext,
      trimmed_of_blanks_around hfront hback hhead hlast]
  · rintro rfl
    constructor <;> rw [toList_trim]
    · exact exists_blanks_around text.toList
    · exact fun c => head_trimmed
    · exact fun c => last_trimmed

end Text

namespace KeyText

/-! ## Texts of keys -/

/-- What comes of a text `t` with no white space around it, of which `n` bytes are asked. -/
inductive Verdict (n : Nat) (what t : String) : Except Trouble (ByteVec n) → Prop where
  /-- `t` is made of two digits for each byte. -/
  | accepted {v : ByteVec n} (hlength : t.toList.length = 2 * n)
      (hdigits : ∀ c ∈ t.toList, Hex.IsDigit c.toNat)
      (hvalue : t.toList.map Hex.rank = v.toList.flatMap Hex.halves) : Verdict n what t (.ok v)
  /-- The number of bytes is odd. -/
  | odd (hodd : (Text.encode t).length % 2 = 1) :
      Verdict n what t (.error (.badHex what .oddLength))
  /-- The number of bytes is even, and `b` is the first that is no digit. -/
  | invalid {front back : Bytes} {b : UInt8} (heven : (Text.encode t).length % 2 = 0)
      (htext : Text.encode t = front ++ b :: back) (hfront : ∀ d ∈ front, Hex.IsDigit d.toNat)
      (hb : ¬ Hex.IsDigit b.toNat) :
      Verdict n what t (.error (.badHex what (.invalidByte b front.length)))
  /-- All bytes are digits, in pairs, but there are too many or too few. -/
  | wrongLength (heven : (Text.encode t).length % 2 = 0)
      (hdigits : ∀ d ∈ Text.encode t, Hex.IsDigit d.toNat)
      (hlength : (Text.encode t).length ≠ 2 * n) :
      Verdict n what t (.error (.wrongLength what ((Text.encode t).length / 2) n))

variable {n : Nat} {text what : String}

theorem decode_of_hex_error {e : Hex.DecodeError}
    (h : Hex.decode (Text.encode (Text.trim text)) = .error e) :
    decode n text what = .error (.badHex what e) := by
  rw [decode, h]

theorem decode_of_hex_ok {bytes : Bytes}
    (h : Hex.decode (Text.encode (Text.trim text)) = .ok bytes) (hlength : bytes.length ≠ n) :
    decode n text what = .error (.wrongLength what bytes.length n) := by
  rw [decode, h]
  simp only [ByteVec.ofList?, hlength, dite_false]

/-- A text is accepted for the bytes that its digits stand for. -/
theorem decode_ok_iff_ranks {v : ByteVec n} :
    decode n text what = .ok v ↔ (∀ c ∈ (Text.trim text).toList, Hex.IsDigit c.toNat) ∧
      (Text.trim text).toList.map Hex.rank = v.toList.flatMap Hex.halves := by
  rw [decode_ok_iff, ← Hex.decode_trim_ok_iff, Hex.decode_encode_ok_iff,
    ← Hex.map_valueOfCode?_iff, Hex.map_valueOfCode?_iff_rank]

theorem Verdict.decode_eq {r : Except Trouble (ByteVec n)} (h : Verdict n what (Text.trim text) r) :
    decode n text what = r := by
  cases h with
  | accepted hlength hdigits hvalue => exact decode_ok_iff_ranks.mpr ⟨hdigits, hvalue⟩
  | odd hodd => exact decode_of_hex_error (Hex.decode_of_odd hodd)
  | invalid heven htext hfront hb =>
      rw [htext] at heven
      apply decode_of_hex_error
      rw [htext, Hex.decode_of_fault heven hfront hb]
  | wrongLength heven hdigits hlength =>
      obtain ⟨bytes, hdecode, hbytes⟩ := Hex.decode_of_digits heven hdigits
      have hhalf : (Text.encode (Text.trim text)).length / 2 = bytes.length := by omega
      rw [hhalf]
      exact decode_of_hex_ok hdecode (by omega)

/-- There is a verdict on every text. -/
theorem exists_verdict (n : Nat) (text what : String) :
    ∃ r, Verdict n what (Text.trim text) r := by
  by_cases heven : (Text.encode (Text.trim text)).length % 2 = 0
  · obtain hdigits | ⟨front, b, back, htext, hfront, hb⟩ :=
      Hex.digits_or_fault (Text.encode (Text.trim text))
    · by_cases hlength : (Text.encode (Text.trim text)).length = 2 * n
      · obtain ⟨bytes, hdecode, hbytes⟩ := Hex.decode_of_digits heven hdigits
        let v : ByteVec n := ⟨bytes, by omega⟩
        have haccepted : decode n text what = .ok v :=
          decode_ok_iff.mpr ((Hex.decode_trim_ok_iff text bytes).mp hdecode)
        obtain ⟨hchars, hvalue⟩ := decode_ok_iff_ranks.mp haccepted
        have hhalves := congrArg List.length hvalue
        rw [List.length_map, Hex.length_flatMap_halves, v.length_toList] at hhalves
        exact ⟨.ok v, .accepted hhalves hchars hvalue⟩
      · exact ⟨_, .wrongLength heven hdigits hlength⟩
    · exact ⟨_, .invalid heven htext hfront hb⟩
  · exact ⟨_, .odd (by omega)⟩

theorem decode_eq_iff {r : Except Trouble (ByteVec n)} :
    decode n text what = r ↔ Verdict n what (Text.trim text) r := by
  refine ⟨?_, Verdict.decode_eq⟩
  rintro rfl
  obtain ⟨r, hr⟩ := exists_verdict n text what
  rwa [hr.decode_eq]

theorem decode_padded (what : String) (v : ByteVec n) {front back : String}
    (hfront : ∀ c ∈ front.toList, Text.isBlank c = true)
    (hback : ∀ c ∈ back.toList, Text.isBlank c = true) :
    decode n (front ++ Hex.encode v.toList ++ back) what = .ok v := by
  obtain ⟨w₁, digits, w₂, hdigits, hw₁, hw₂, hlower⟩ := Hex.spells_encode v.toList
  refine decode_ok_iff.mpr ⟨front.toList ++ w₁, digits, w₂ ++ back.toList, ?_, ?_, ?_, hlower⟩
  · rw [String.toList_append, String.toList_append, hdigits]
    simp only [List.append_assoc]
  · exact List.forall_mem_append.mpr ⟨hfront, hw₁⟩
  · exact List.forall_mem_append.mpr ⟨hw₂, hback⟩

theorem encode_of_decode {v : ByteVec n} (h : decode n text what = .ok v) :
    Hex.encode v.toList = (Text.trim text).toLower := by
  rw [decode_ok_iff, ← Hex.decode_trim_ok_iff, Hex.decode_encode_ok_iff] at h
  rw [← String.toList_inj, Hex.encode, String.toList_ofList, ← h]
  exact String.toList_map.symm

/-- The messages of the three verdicts against a text. -/
structure ShowsFaults (n : Nat) (what : String) : Prop where
  odd : (Trouble.badHex what .oddLength).chain =
    ["invalid hex for " ++ what, "Odd number of digits"]
  invalid : ∀ b position, (Trouble.badHex what (.invalidByte b position)).chain =
    ["invalid hex for " ++ what,
      s!"Invalid character {Text.quotedChar (Char.ofNat b.toNat)} at position {position}"]
  wrongLength : ∀ actual, (Trouble.wrongLength what actual n).chain =
    [s!"wrong length for {what}: got {actual} bytes, expected {n}"]

/-- What comes of every text of which `n` bytes are asked. -/
structure DecodesExactly (n : Nat) (what : String) : Prop where
  /-- There is one way to take the white space off a text. -/
  strips : ∀ text, ∃! t, Text.Strips text t
  /-- The text that is left gets one verdict, by its first fault if it has one. -/
  verdict : ∀ {text t}, Text.Strips text t → ∀ r, decode n text what = r ↔ Verdict n what t r
  /-- What was read is written again in lower case. -/
  lowered : ∀ {text t v}, Text.Strips text t → decode n text what = .ok v →
    Hex.encode v.toList = t.toLower
  /-- What was written is read again, with any white space around it. -/
  padded : ∀ (v : ByteVec n) {front back : String},
    (∀ c ∈ front.toList, Text.isBlank c = true) → (∀ c ∈ back.toList, Text.isBlank c = true) →
      decode n (front ++ Hex.encode v.toList ++ back) what = .ok v
  shown : ShowsFaults n what

theorem decodes_exactly (n : Nat) (what : String) : DecodesExactly n what where
  strips text := ⟨Text.trim text, Text.strips_iff.mpr rfl, fun _ ht => Text.strips_iff.mp ht⟩
  verdict ht r := by
    obtain rfl := Text.strips_iff.mp ht
    exact decode_eq_iff
  lowered ht hdecode := by
    obtain rfl := Text.strips_iff.mp ht
    exact encode_of_decode hdecode
  padded v front back hfront hback := decode_padded what v hfront hback
  shown := ⟨rfl, fun _ _ => rfl, fun _ => rfl⟩

example : decode 2 " BeeF\n" "test" = .ok ⟨[0xbe, 0xef], rfl⟩ := by decide +kernel

example : decode 2 "1éz" "key" = .error (.badHex "key" (.invalidByte 195 1)) := by decide +kernel

end KeyText

end Strongbox
