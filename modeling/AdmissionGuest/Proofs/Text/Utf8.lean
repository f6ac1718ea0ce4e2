import Mathlib.Tactic.IntervalCases
import AdmissionGuest.Text.Utf8
/-!
Text survives as bytes: the bytes of every character are cut off as one piece again, so decoding
inverts encoding, strictly and lossily. Bytes of a text stay bytes of a text when ASCII is taken off
their front.
-/

namespace AdmissionGuest.Utf8

theorem lead_one {n : Nat} (small : n < 0x80) :
    lead (UInt8.ofNat n) = some ⟨n, 0x80, 0xBF, 0⟩ := by
  have byte : (UInt8.ofNat n).toNat = n := by
    simp only [UInt8.toNat_ofNat']
    omega
  simp only [lead, byte, if_pos small]

theorem lead_two {n : Nat} (least : 2 ≤ n) (small : n < 0x20) :
    lead (UInt8.ofNat (n % 0x20 + 0xC0)) = some ⟨n, 0x80, 0xBF, 1⟩ := by
  interval_cases n <;> rfl

/-- Above the first lead byte of three the second byte is free, but for the surrogates. -/
theorem lead_three {n : Nat} (small : n < 0x10) :
    lead (UInt8.ofNat (n % 0x10 + 0xE0)) =
      some ⟨n, if n = 0 then 0xA0 else 0x80, if n = 0xD then 0x9F else 0xBF, 2⟩ := by
  interval_cases n <;> rfl

theorem lead_four {n : Nat} (small : n < 5) :
    lead (UInt8.ofNat (n % 8 + 0xF0)) =
      some ⟨n, if n = 0 then 0x90 else 0x80, if n = 4 then 0x8F else 0xBF, 3⟩ := by
  interval_cases n <;> rfl

/-- A continuation byte carries six bits. It is read if it lies in the range that the lead byte
announced. -/
theorem follow_continuation {more n value : Nat} {low high : UInt8} {rest : Bytes}
    (above : low.toNat ≤ n % 0x40 + 0x80) (below : n % 0x40 + 0x80 ≤ high.toNat) :
    follow (more + 1) low high value (UInt8.ofNat (n % 0x40 + 0x80) :: rest) =
      follow more 0x80 0xBF (value * 0x40 + n % 0x40) rest := by
  have byte : (UInt8.ofNat (n % 0x40 + 0x80)).toNat = n % 0x40 + 0x80 := by
    simp only [UInt8.toNat_ofNat']
    omega
  have within : low ≤ UInt8.ofNat (n % 0x40 + 0x80) ∧ UInt8.ofNat (n % 0x40 + 0x80) ≤ high := by
    rw [UInt8.le_iff_toNat_le, UInt8.le_iff_toNat_le, byte]
    exact ⟨above, below⟩
  have bits : (n % 0x40 + 0x80) % 0x40 = n % 0x40 := by omega
  rw [follow, if_pos within, byte, bits]

theorem follow_last {n value : Nat} {rest : Bytes} :
    follow 1 0x80 0xBF value (UInt8.ofNat (n % 0x40 + 0x80) :: rest) =
      (.character (Char.ofNat (value * 0x40 + n % 0x40)), rest) := by
  rw [follow_continuation (by change 0x80 ≤ _; omega) (by change _ ≤ 0xBF; omega), follow]

/-- The bytes of a character are cut off as that character, whatever follows them. The cases are the
lengths of its encoding; the second of three or four bytes lies in its range because the encoding is
not overlong and the character no surrogate. -/
theorem piece_encodeChar (c : Char) (rest : Bytes) :
    ∃ b more, String.utf8EncodeChar c = b :: more ∧
      piece b (more ++ rest) = (.character c, rest) := by
  have valid : c.val.toNat < 0xD800 ∨ 0xDFFF < c.val.toNat ∧ c.val.toNat < 0x110000 := c.valid
  have same : ∀ n, n = c.val.toNat → Char.ofNat n = c := fun n h => h ▸ Char.ofNat_toNat c
  unfold String.utf8EncodeChar
  generalize c.val.toNat = v at valid same
  by_cases one : v ≤ 0x7F
  · refine ⟨_, _, if_pos one, ?_⟩
    simp only [piece, lead_one (show v < 0x80 by omega), follow, same, List.nil_append]
  by_cases two : v ≤ 0x7FF
  · refine ⟨_, _, (if_neg one).trans (if_pos two), ?_⟩
    simp only [piece, lead_two (show 2 ≤ v / 64 by omega) (by omega), List.cons_append,
      List.nil_append]
    rw [follow_last, same _ (by omega)]
  by_cases three : v ≤ 0xFFFF
  · refine ⟨_, _, (if_neg one).trans ((if_neg two).trans (if_pos three)), ?_⟩
    simp only [piece, lead_three (show v / 4096 < 0x10 by omega), List.cons_append,
      List.nil_append]
    have above : (if v / 4096 = 0 then (0xA0 : UInt8) else 0x80).toNat ≤ v / 64 % 0x40 + 0x80 := by
      split
      · change 0xA0 ≤ _
        omega
      · change 0x80 ≤ _
        omega
    have below : v / 64 % 0x40 + 0x80 ≤ (if v / 4096 = 0xD then (0x9F : UInt8) else 0xBF).toNat := by
      split
      · change _ ≤ 0x9F
        omega
      · change _ ≤ 0xBF
        omega
    rw [follow_continuation above below, follow_last, same _ (by omega)]
  · refine ⟨_, _, (if_neg one).trans ((if_neg two).trans (if_neg three)), ?_⟩
    simp only [piece, lead_four (show v / 262144 < 5 by omega), List.cons_append, List.nil_append]
    have above : (if v / 262144 = 0 then (0x90 : UInt8) else 0x80).toNat ≤
        v / 4096 % 0x40 + 0x80 := by
      split
      · change 0x90 ≤ _
        omega
      · change 0x80 ≤ _
        omega
    have below : v / 4096 % 0x40 + 0x80 ≤
        (if v / 262144 = 4 then (0x8F : UInt8) else 0xBF).toNat := by
      split
      · change _ ≤ 0x8F
        omega
      · change _ ≤ 0xBF
        omega
    rw [follow_continuation above below,
      follow_continuation (by change 0x80 ≤ _; omega) (by change _ ≤ 0xBF; omega), follow_last,
      same _ (by omega)]

theorem decodeFrom_encode (cs : List Char) {fuel : Nat} (enough : cs.length ≤ fuel) :
    decodeFrom fuel (cs.flatMap String.utf8EncodeChar) = .ok cs := by
  induction cs generalizing fuel with
  | nil => cases fuel <;> rfl
  | cons c cs ih =>
    cases fuel with
    | zero => simp at enough
    | succ fuel =>
      obtain ⟨b, more, bytes, read⟩ := piece_encodeChar c (cs.flatMap String.utf8EncodeChar)
      simp only [List.flatMap_cons, bytes, List.cons_append, decodeFrom, read]
      rw [ih (by simpa using enough)]
      rfl

theorem cut_encode (cs : List Char) {fuel : Nat} (enough : cs.length ≤ fuel) :
    cut fuel (cs.flatMap String.utf8EncodeChar) = cs.map .character := by
  induction cs generalizing fuel with
  | nil => cases fuel <;> rfl
  | cons c cs ih =>
    cases fuel with
    | zero => simp at enough
    | succ fuel =>
      obtain ⟨b, more, bytes, read⟩ := piece_encodeChar c (cs.flatMap String.utf8EncodeChar)
      simp only [List.flatMap_cons, bytes, List.cons_append, cut, read, List.map_cons]
      rw [ih (by simpa using enough)]

/-- No character takes less than a byte, so a bound by the bytes is a bound by the characters. -/
theorem length_le_encode (cs : List Char) :
    cs.length ≤ (cs.flatMap String.utf8EncodeChar).length := by
  induction cs with
  | nil => rfl
  | cons c cs ih =>
    have one := c.utf8Size_pos
    simp only [List.flatMap_cons, List.length_append, String.length_utf8EncodeChar, List.length_cons]
    omega

/-- Every text is decoded from its bytes. -/
theorem decode_encode (text : String) : decode (encode text) = .ok text := by
  rw [decode, encode, decodeFrom_encode _ (length_le_encode _)]
  exact congrArg Except.ok String.ofList_toList

/-- Bytes of a text lose nothing when ill-formed prefixes are replaced, for they have none. -/
theorem decodeLossy_encode (text : String) : decodeLossy (encode text) = text := by
  rw [decodeLossy, pieces, encode, cut_encode _ (length_le_encode _), List.map_map]
  exact (congrArg String.ofList (List.map_id _)).trans String.ofList_toList

/-! Bytes of characters -/

/-- Bytes that encode some characters. -/
def WellFormed (bytes : Bytes) : Prop :=
  ∃ cs : List Char, bytes = cs.flatMap String.utf8EncodeChar

theorem wellFormed_encode (text : String) : WellFormed (encode text) :=
  ⟨text.toList, rfl⟩

/-- A byte of ASCII is a character by itself. -/
theorem encodeChar_ascii {c : Char} {b : UInt8} {more : Bytes}
    (encoded : String.utf8EncodeChar c = b :: more) (ascii : b < 0x80) : more = [] := by
  obtain ⟨_, _, encoded', read⟩ := piece_encodeChar c []
  cases encoded.symm.trans encoded'
  have led := lead_one (UInt8.lt_iff_toNat_lt.mp ascii)
  rw [UInt8.ofNat_toNat] at led
  simp only [piece, led, follow, List.append_nil] at read
  exact (Prod.mk.inj read).2

namespace WellFormed

variable {b : UInt8} {bytes part rest : Bytes}

theorem first (formed : WellFormed (b :: bytes)) :
    ∃ c more rest, String.utf8EncodeChar c = b :: more ∧ bytes = more ++ rest ∧
      WellFormed rest := by
  obtain ⟨cs, encoded⟩ := formed
  cases cs with
  | nil => cases encoded
  | cons c cs =>
    obtain ⟨b', more, bytes', _⟩ := piece_encodeChar c []
    rw [List.flatMap_cons, bytes'] at encoded
    obtain ⟨rfl, rfl⟩ := List.cons.inj encoded
    exact ⟨c, more, _, bytes', rfl, cs, rfl⟩

theorem tail (formed : WellFormed (b :: bytes)) (ascii : b < 0x80) : WellFormed bytes := by
  obtain ⟨c, more, rest, encoded, rfl, others⟩ := formed.first
  obtain rfl := encodeChar_ascii encoded ascii
  exact others

/-- What follows bytes of ASCII is well-formed if the whole is. -/
theorem drop (formed : WellFormed (part ++ rest)) (ascii : ∀ b ∈ part, b < 0x80) :
    WellFormed rest := by
  induction part with
  | nil => exact formed
  | cons b part ih =>
    obtain ⟨first, others⟩ := List.forall_mem_cons.mp ascii
    exact ih (formed.tail first) others

end WellFormed

end AdmissionGuest.Utf8
