import AdmissionGuest.Json.Scan
import AdmissionGuest.Json.Write
import AdmissionGuest.Proofs.Text.Utf8
/-!
A text is read back from its quoted form. Reading is described with the bytes that follow present,
so that the closing quote is the first one that is not escaped.
-/

namespace AdmissionGuest.Scan

open Ascii

/-- Under every bound of at least `cost` bytes, the body of a text is read off the bytes and stands
for `body`. -/
def ReadsBody (cost : Nat) (bytes body rest : Bytes) : Prop :=
  ∀ bound : Bytes, cost ≤ bound.length → textBytes bound bytes = .ok (body, rest)

/-- A byte that stands for itself inside quotes. -/
def Plain (b : UInt8) : Prop := b ≠ quote ∧ b ≠ backslash ∧ ¬ b < 0x20

namespace ReadsBody

variable {cost : Nat} {bytes body rest : Bytes}

theorem close (rest : Bytes) : ReadsBody 1 (quote :: rest) [] rest := by
  intro bound enough
  cases bound with
  | nil => contradiction
  | cons _ bound => rfl

theorem weaken {more : Nat} (reads : ReadsBody cost bytes body rest) (le : cost ≤ more) :
    ReadsBody more bytes body rest :=
  fun bound enough => reads bound (le.trans enough)

theorem plain {b : UInt8} (reads : ReadsBody cost bytes body rest) (self : Plain b) :
    ReadsBody (cost + 1) (b :: bytes) (b :: body) rest := by
  intro bound enough
  cases bound with
  | nil => contradiction
  | cons _ bound =>
    have tail := reads bound (Nat.le_of_succ_le_succ enough)
    rw [textBytes, if_neg self.1, if_neg self.2.1, if_neg self.2.2, tail]
    rfl

theorem plains {bs : Bytes} (reads : ReadsBody cost bytes body rest) (selves : ∀ b ∈ bs, Plain b) :
    ReadsBody (bs.length + cost) (bs ++ bytes) (bs ++ body) rest := by
  induction bs with
  | nil => simpa using reads
  | cons b bs ih =>
    have tail := ih fun x hx => selves x (List.mem_cons_of_mem _ hx)
    exact (tail.plain (selves b List.mem_cons_self)).weaken (by simp only [List.length_cons]; omega)

theorem escaped {first escapes : Bytes} (reads : ReadsBody cost bytes body rest)
    (stands : escape escapes = .ok (first, bytes)) :
    ReadsBody (cost + 1) (backslash :: escapes) (first ++ body) rest := by
  intro bound enough
  cases bound with
  | nil => contradiction
  | cons _ bound =>
    have tail := reads bound (Nat.le_of_succ_le_succ enough)
    rw [textBytes, if_neg (by decide), if_pos rfl, stands]
    change (textBytes bound bytes >>= fun r => pure (first ++ r.1, r.2)) = _
    rw [tail]
    rfl

end ReadsBody

theorem hexDigit?_hexByte {n : Nat} (small : n < 16) : hexDigit? (hexByte n) = some n := by
  interval_cases n <;> rfl

/-- The numbered form of a character below the space. -/
theorem escape_numbered {n : Nat} (small : n < 0x20) (tail : Bytes) :
    escape (letterU :: zero :: zero :: hexByte (n / 16) :: hexByte (n % 16) :: tail) =
      .ok (String.utf8EncodeChar (Char.ofNat n), tail) := by
  have high := hexDigit?_hexByte (show n / 16 < 16 by omega)
  have low := hexDigit?_hexByte (show n % 16 < 16 by omega)
  have none : hexDigit? zero = some 0 := rfl
  have value : ((0 * 16 + 0) * 16 + n / 16) * 16 + n % 16 = n := by omega
  have code : codeEscape (zero :: zero :: hexByte (n / 16) :: hexByte (n % 16) :: tail) =
      .ok (Char.ofNat n, tail) := by
    simp only [codeEscape, hexEscape, none, high, low, value, bind, Except.bind]
    rw [if_neg (by omega), if_neg (by omega)]
    rfl
  change (codeEscape _ >>= fun r => pure (String.utf8EncodeChar r.1, r.2)) = _
  rw [code]
  rfl

theorem plain_of_toNat {b : UInt8} (printing : 0x20 ≤ b.toNat) (quoted : b.toNat ≠ 0x22)
    (escaping : b.toNat ≠ 0x5C) : Plain b := by
  refine ⟨?_, ?_, ?_⟩
  · rintro rfl
    exact quoted rfl
  · rintro rfl
    exact escaping rfl
  · rw [UInt8.lt_iff_toNat_lt]
    exact Nat.not_lt.mpr printing

/-- A character that is not escaped is written in bytes that stand for themselves: it is ASCII and
printing, or all its bytes lie above ASCII. -/
theorem plain_encodeChar {c : Char} (quoted : c ≠ '"') (escaping : c ≠ '\\')
    (printing : ¬ c.toNat < 0x20) : ∀ b ∈ String.utf8EncodeChar c, Plain b := by
  have notQuote : c.val.toNat ≠ 0x22 := fun h => quoted (Char.toNat_inj.mp h)
  have notBackslash : c.val.toNat ≠ 0x5C := fun h => escaping (Char.toNat_inj.mp h)
  have above : ¬ c.val.toNat < 0x20 := printing
  intro b mem
  unfold String.utf8EncodeChar at mem
  generalize c.val.toNat = v at mem notQuote notBackslash above
  simp only at mem
  split at mem
  · obtain rfl := List.mem_singleton.mp mem
    have byte : (UInt8.ofNat v).toNat = v := by
      simp only [UInt8.toNat_ofNat']
      omega
    exact plain_of_toNat (by omega) (by omega) (by omega)
  · have high : 0x80 ≤ b.toNat := by
      split at mem
      · simp only [List.mem_cons, List.not_mem_nil, or_false] at mem
        rcases mem with rfl | rfl <;> simp only [UInt8.toNat_ofNat'] <;> omega
      · split at mem
        · simp only [List.mem_cons, List.not_mem_nil, or_false] at mem
          rcases mem with rfl | rfl | rfl <;> simp only [UInt8.toNat_ofNat'] <;> omega
        · simp only [List.mem_cons, List.not_mem_nil, or_false] at mem
          rcases mem with rfl | rfl | rfl | rfl <;> simp only [UInt8.toNat_ofNat'] <;> omega
    exact plain_of_toNat (by omega) (by omega) (by omega)

/-- One character is read back from its form inside quotes. The cases are the forms: a letter for
the quote, the backslash and five control characters, a number for the other ones. -/
theorem ReadsBody.char {cost : Nat} {bytes body rest : Bytes} (c : Char)
    (reads : ReadsBody cost bytes body rest) :
    ReadsBody ((escapedChar c).length + cost) (escapedChar c ++ bytes)
      (String.utf8EncodeChar c ++ body) rest := by
  have named : ∀ n, c.toNat = n → Char.ofNat n = c := fun n h => h ▸ Char.ofNat_toNat c
  unfold escapedChar
  dsimp only
  split
  · next quoted =>
    subst quoted
    exact (reads.escaped rfl).weaken (by simp only [List.length_cons]; omega)
  split
  · next escaping =>
    subst escaping
    exact (reads.escaped rfl).weaken (by simp only [List.length_cons]; omega)
  iterate 5
    split
    · next letter =>
      obtain rfl := named _ letter
      exact (reads.escaped rfl).weaken (by simp only [List.length_cons]; omega)
  split
  · next control =>
    have numbered := escape_numbered control bytes
    rw [named _ rfl] at numbered
    exact (reads.escaped numbered).weaken (by simp only [List.length_cons]; omega)
  · next quoted escaping _ _ _ _ _ printing =>
    exact reads.plains (plain_encodeChar quoted escaping printing)

theorem ReadsBody.chars (cs : List Char) (rest : Bytes) :
    ReadsBody ((cs.flatMap escapedChar).length + 1) (cs.flatMap escapedChar ++ quote :: rest)
      (cs.flatMap String.utf8EncodeChar) rest := by
  induction cs with
  | nil => exact .close rest
  | cons c cs ih =>
    simp only [List.flatMap_cons, List.append_assoc, List.length_append, Nat.add_assoc]
    exact ih.char c

/-- A text is read back from its body and the closing quote. -/
theorem textBody_escaped (s : String) (rest : Bytes) :
    textBody (s.toList.flatMap escapedChar ++ quote :: rest) = .ok (s, rest) := by
  have body := ReadsBody.chars s.toList rest (s.toList.flatMap escapedChar ++ quote :: rest)
    (by simp only [List.length_append, List.length_cons]; omega)
  have text : Utf8.decode (s.toList.flatMap String.utf8EncodeChar) = .ok s := Utf8.decode_encode s
  simp only [textBody, body, text, bind, Except.bind]
  rfl

end AdmissionGuest.Scan
