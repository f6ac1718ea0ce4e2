import AdmissionGuest.Proofs.Json.Spelling.Numeral
/-!
A spelled text is read as the characters that its marks stand for, unless they have surrogates that
do not come in pairs. It is skipped in any case.
-/

namespace AdmissionGuest

open Ascii Scan

namespace Spelling

theorem hexDigit?_byte (h : HexDigit) : hexDigit? h.byte = some h.value.val := by
  obtain ⟨value, capital⟩ := h
  revert value capital
  decide

theorem hexEscape_bytes (u : CodeUnit) (rest : Bytes) :
    hexEscape (u.bytes ++ rest) = .ok (u.value, rest) := by
  simp only [CodeUnit.bytes, List.cons_append, List.nil_append, hexEscape, hexDigit?_byte]
  rfl

theorem Mark.plain_bytes {c : Char} (unescaped : Unescaped c) :
    ∀ b ∈ String.utf8EncodeChar c, Plain b :=
  plain_encodeChar unescaped.1 unescaped.2.1 unescaped.2.2

theorem escape_short (s : Short) (rest : Bytes) :
    escape (s.letter :: rest) = .ok (String.utf8EncodeChar s.char, rest) := by
  cases s <;> rfl

theorem markBytes_cons (m : Mark) (ms : List Mark) :
    markBytes (m :: ms) = m.bytes ++ markBytes ms := rfl

/-! Reading -/

/-- Under every bound of at least `cost` bytes, reading the body of a text finds `body`. -/
def BodyFollows (cost : Nat) (bytes : Bytes) (body : Except Cause Bytes) (rest : Bytes) : Prop :=
  ∀ bound : Bytes, cost ≤ bound.length → Follows (textBytes bound bytes) body rest

namespace BodyFollows

variable {cost : Nat} {bytes rest : Bytes} {body : Except Cause Bytes}

theorem close (rest : Bytes) : BodyFollows 1 (quote :: rest) (.ok []) rest := by
  intro bound enough
  rw [ReadsBody.close rest bound enough]
  exact .done

theorem weaken {more : Nat} (follows : BodyFollows cost bytes body rest) (le : cost ≤ more) :
    BodyFollows more bytes body rest :=
  fun bound enough => follows bound (le.trans enough)

theorem plain {b : UInt8} (follows : BodyFollows cost bytes body rest) (self : Plain b) :
    BodyFollows (cost + 1) (b :: bytes) ((b :: ·) <$> body) rest := by
  intro bound enough
  cases bound with
  | nil => contradiction
  | cons _ bound =>
    rw [textBytes, if_neg self.1, if_neg self.2.1, if_neg self.2.2]
    exact (follows bound (Nat.le_of_succ_le_succ enough)).map (b :: ·)

theorem plains {bs : Bytes} (follows : BodyFollows cost bytes body rest)
    (selves : ∀ b ∈ bs, Plain b) :
    BodyFollows (bs.length + cost) (bs ++ bytes) ((bs ++ ·) <$> body) rest := by
  induction bs with
  | nil => simpa using follows
  | cons b bs ih =>
    have tail := ih fun x here => selves x (List.mem_cons_of_mem _ here)
    have whole := (tail.plain (selves b List.mem_cons_self)).weaken
      (show bs.length + cost + 1 ≤ (b :: bs).length + cost by rw [List.length_cons]; omega)
    rwa [Functor.map_map] at whole

theorem escaped {first escapes : Bytes} (follows : BodyFollows cost bytes body rest)
    (stands : escape escapes = .ok (first, bytes)) :
    BodyFollows (cost + 1) (backslash :: escapes) ((first ++ ·) <$> body) rest := by
  intro bound enough
  cases bound with
  | nil => contradiction
  | cons _ bound =>
    rw [textBytes, if_neg (by decide), if_pos rfl, stands]
    exact (follows bound (Nat.le_of_succ_le_succ enough)).map (first ++ ·)

theorem refused {escapes : Bytes} {fault : Fault} {cause : Cause}
    (fails : escape escapes = .error fault) :
    BodyFollows 1 (backslash :: escapes) (.error cause) rest := by
  intro bound enough
  cases bound with
  | nil => contradiction
  | cons _ bound =>
    rw [textBytes, if_neg (by decide), if_pos rfl, fails]
    exact .failed

end BodyFollows

section Codes

variable {u v : CodeUnit} {bytes : Bytes}

/-- The escape of a code unit goes on as the unit asks for. -/
theorem escape_code (u : CodeUnit) (bytes : Bytes) :
    escape (letterU :: (u.bytes ++ bytes)) =
      ((if u.Low then faultAfter .loneSurrogate bytes
        else if u.High then trailingSurrogate u.value bytes
        else .ok (Char.ofNat u.value, bytes)) >>= fun r =>
          pure (String.utf8EncodeChar r.1, r.2)) := by
  change (codeEscape (u.bytes ++ bytes) >>= _) = _
  simp only [codeEscape, hexEscape_bytes]
  rfl

theorem escape_single (notLow : ¬ u.Low) (notHigh : ¬ u.High) :
    escape (letterU :: (u.bytes ++ bytes)) =
      .ok (String.utf8EncodeChar (Char.ofNat u.value), bytes) := by
  rw [escape_code, if_neg notLow, if_neg notHigh]
  rfl

theorem escape_low (low : u.Low) (bytes : Bytes) :
    ∃ fault, escape (letterU :: (u.bytes ++ bytes)) = .error fault := by
  rw [escape_code, if_pos low]
  exact ⟨_, rfl⟩

theorem escape_high (notLow : ¬ u.Low) (high : u.High) :
    escape (letterU :: (u.bytes ++ bytes)) =
      (trailingSurrogate u.value bytes >>= fun r => pure (String.utf8EncodeChar r.1, r.2)) := by
  rw [escape_code, if_neg notLow, if_pos high]

theorem trailingSurrogate_code :
    trailingSurrogate u.value (backslash :: letterU :: (v.bytes ++ bytes)) =
      if v.Low then .ok (u.pair v, bytes) else faultAfter .loneSurrogate bytes := by
  change (hexEscape (v.bytes ++ bytes) >>= _) = _
  rw [hexEscape_bytes]
  rfl

end Codes

/-- Only a code unit can be the second half of a pair. -/
theorem trailingSurrogate_other {ms : List Mark} (other : ∀ v more, ms ≠ .code v :: more)
    (n : Nat) (rest : Bytes) :
    ∃ fault, trailingSurrogate n (markBytes ms ++ quote :: rest) = .error fault := by
  cases ms with
  | nil => exact ⟨_, rfl⟩
  | cons m more =>
    rw [markBytes_cons, List.append_assoc]
    generalize markBytes more ++ quote :: rest = left
    cases m with
    | code v => exact absurd rfl (other v more)
    | short s => cases s <;> exact ⟨_, rfl⟩
    | plain c unescaped =>
      have selves := Mark.plain_bytes unescaped
      obtain ⟨b, tail, written, _⟩ := Utf8.piece_encodeChar c []
      have notEscape : b ≠ backslash := by
        refine (selves b ?_).2.1
        rw [written]
        exact List.mem_cons_self
      change ∃ fault, trailingSurrogate n (String.utf8EncodeChar c ++ left) = .error fault
      rw [written, List.cons_append, trailingSurrogate.eq_def]
      split
      next same => cases same
      next same => exact absurd (List.cons.inj same).1 notEscape
      next same => exact absurd (List.cons.inj same).1 notEscape
      next same => exact absurd (List.cons.inj same).1 notEscape
      next => exact ⟨_, rfl⟩

/-- The bytes of the characters that marks stand for. -/
def bodyOf (ms : List Mark) : Except Cause Bytes :=
  (·.flatMap String.utf8EncodeChar) <$> charsOf ms

section Codes

variable {u v : CodeUnit} {ms : List Mark}

theorem charsOf_low (low : u.Low) : charsOf (.code u :: ms) = .error .loneSurrogate := by
  rw [charsOf.eq_def]
  exact if_pos low

theorem charsOf_single (notLow : ¬ u.Low) (notHigh : ¬ u.High) :
    charsOf (.code u :: ms) = (Char.ofNat u.value :: ·) <$> charsOf ms := by
  rw [charsOf.eq_def]
  exact (if_neg notLow).trans (if_neg notHigh)

theorem charsOf_pair (notLow : ¬ u.Low) (high : u.High) :
    charsOf (.code u :: .code v :: ms) =
      if v.Low then (u.pair v :: ·) <$> charsOf ms else .error .loneSurrogate := by
  rw [charsOf.eq_def]
  exact (if_neg notLow).trans (if_pos high)

theorem charsOf_unfinished (notLow : ¬ u.Low) (high : u.High)
    (other : ∀ v more, ms ≠ .code v :: more) :
    charsOf (.code u :: ms) = .error .unfinishedSurrogate := by
  rw [charsOf, if_neg notLow, if_pos high]
  exact other

end Codes

theorem map_bodyOf (c : Char) (ms : List Mark) :
    (·.flatMap String.utf8EncodeChar) <$> (c :: ·) <$> charsOf ms =
      (String.utf8EncodeChar c ++ ·) <$> bodyOf ms := by
  simp only [bodyOf, Functor.map_map]
  rfl

/-- The cases are those in which the marks are taken one by one or, for a pair of surrogates, two at
a time. -/
theorem marks_follow (ms : List Mark) (rest : Bytes) :
    BodyFollows ((markBytes ms).length + 1) (markBytes ms ++ quote :: rest) (bodyOf ms) rest := by
  have bytes_append (m : Mark) (ms : List Mark) :
      markBytes (m :: ms) ++ quote :: rest = m.bytes ++ (markBytes ms ++ quote :: rest) := by
    rw [markBytes_cons, List.append_assoc]
  have escape_append (u : CodeUnit) (ms : List Mark) :
      markBytes (.code u :: ms) ++ quote :: rest =
        backslash :: letterU :: (u.bytes ++ (markBytes ms ++ quote :: rest)) :=
    bytes_append _ _
  have longer (m : Mark) (ms : List Mark) :
      (markBytes ms).length < (markBytes (m :: ms)).length := by
    have some : 0 < m.bytes.length := by
      cases m with
      | plain c _ => exact String.length_utf8EncodeChar c ▸ c.utf8Size_pos
      | short _ | code _ => exact Nat.succ_pos _
    rw [markBytes_cons, List.length_append]
    omega
  induction ms using charsOf.induct with
  | case1 => exact .close rest
  | case2 c unescaped ms ih =>
    have whole := ih.plains (Mark.plain_bytes unescaped)
    rw [← map_bodyOf] at whole
    rw [bytes_append, markBytes_cons, List.length_append, Nat.add_assoc]
    exact whole
  | case3 s ms ih =>
    have whole := ih.escaped (escape_short s _)
    rw [← map_bodyOf] at whole
    rw [bytes_append]
    exact whole.weaken (Nat.succ_le_succ (longer _ _))
  | case4 u ms low =>
    obtain ⟨fault, fails⟩ := escape_low low (markBytes ms ++ quote :: rest)
    rw [escape_append, bodyOf, charsOf_low low]
    exact (BodyFollows.refused fails).weaken (Nat.le_add_left _ _)
  | case5 u notLow high v ms low ih =>
    have stands : escape (letterU :: (u.bytes ++ (markBytes (.code v :: ms) ++ quote :: rest))) =
        .ok (String.utf8EncodeChar (u.pair v), markBytes ms ++ quote :: rest) := by
      rw [escape_high notLow high, escape_append, trailingSurrogate_code, if_pos low]
      simp only [bind, Except.bind, pure, Except.pure]
    have whole := ih.escaped stands
    rw [← map_bodyOf] at whole
    rw [escape_append, bodyOf, charsOf_pair notLow high, if_pos low]
    have one := longer (.code u) (.code v :: ms)
    have two := longer (.code v) ms
    exact whole.weaken (by omega)
  | case6 u notLow high v ms notLow' =>
    have fails : escape (letterU :: (u.bytes ++ (markBytes (.code v :: ms) ++ quote :: rest))) =
        faultAfter .loneSurrogate (markBytes ms ++ quote :: rest) := by
      rw [escape_high notLow high, escape_append, trailingSurrogate_code, if_neg notLow']
      rfl
    rw [escape_append, bodyOf, charsOf_pair notLow high, if_neg notLow']
    exact (BodyFollows.refused fails).weaken (Nat.le_add_left _ _)
  | case7 u ms notLow high other =>
    obtain ⟨fault, unfinished⟩ := trailingSurrogate_other other u.value rest
    have fails :
        escape (letterU :: (u.bytes ++ (markBytes ms ++ quote :: rest))) = .error fault := by
      rw [escape_high notLow high, unfinished]
      rfl
    rw [escape_append, bodyOf, charsOf_unfinished notLow high other]
    exact (BodyFollows.refused fails).weaken (Nat.le_add_left _ _)
  | case8 u ms notLow notHigh ih =>
    have whole := ih.escaped (escape_single notLow notHigh)
    rw [← map_bodyOf] at whole
    rw [escape_append, bodyOf, charsOf_single notLow notHigh]
    exact whole.weaken (Nat.succ_le_succ (longer _ _))

/-- A spelled text is read as what its marks stand for. -/
theorem text_follows (ms : List Mark) (rest : Bytes) :
    Follows (textBody (markBytes ms ++ quote :: rest)) (textOf ms) rest := by
  have body := marks_follow ms rest (markBytes ms ++ quote :: rest)
    (by rw [List.length_append, List.length_cons]; omega)
  rw [bodyOf] at body
  rw [textBody, textOf]
  cases chars : charsOf ms with
  | error cause =>
    rw [chars] at body
    exact body.stuck
  | ok cs =>
    rw [chars] at body
    have text : Utf8.decode (cs.flatMap String.utf8EncodeChar) = .ok (String.ofList cs) := by
      rw [← Utf8.decode_encode, Utf8.encode, String.toList_ofList]
    have found := body.ok_iff.mpr ⟨rfl, rfl⟩
    simp only [found, bind, Except.bind, text]
    exact .done

/-! Every text has a spelling -/

/-- The last digit of a number. -/
def HexDigit.ofNat (n : Nat) : HexDigit := ⟨⟨n % 16, Nat.mod_lt n (by decide)⟩, false⟩

def CodeUnit.ofNat (n : Nat) : CodeUnit :=
  ⟨.ofNat (n / 0x1000), .ofNat (n / 0x100), .ofNat (n / 0x10), .ofNat n⟩

/-- A character as itself if it can stand for itself, else by its number. -/
def mark (c : Char) : Mark :=
  if unescaped : Unescaped c then .plain c unescaped else .code (.ofNat c.toNat)

def marks (s : String) : List Mark := s.toList.map mark

theorem value_ofNat {n : Nat} (small : n < 0x10000) : (CodeUnit.ofNat n).value = n := by
  simp only [CodeUnit.value, CodeUnit.ofNat, HexDigit.ofNat]
  omega

/-- Only characters of ASCII have to be escaped. -/
theorem toNat_of_escaped {c : Char} (escaped : ¬ Unescaped c) : c.toNat < 0x80 := by
  by_cases quoted : c = '"'
  · subst quoted
    decide
  by_cases escaping : c = '\\'
  · subst escaping
    decide
  have control : c.toNat < 0x20 := by
    by_contra printing
    exact escaped ⟨quoted, escaping, printing⟩
  omega

theorem charsOf_map_mark (cs : List Char) : charsOf (cs.map mark) = .ok cs := by
  induction cs with
  | nil => rfl
  | cons c cs ih =>
    rw [List.map_cons, mark]
    split
    next => rw [charsOf, ih]; rfl
    next escaped =>
      have small := toNat_of_escaped escaped
      have value : (CodeUnit.ofNat c.toNat).value = c.toNat := value_ofNat (by omega)
      have notLow : ¬ (CodeUnit.ofNat c.toNat).Low := by
        rw [CodeUnit.Low, value]
        omega
      have notHigh : ¬ (CodeUnit.ofNat c.toNat).High := by
        rw [CodeUnit.High, value]
        omega
      rw [charsOf_single notLow notHigh, value, Char.ofNat_toNat, ih]
      rfl

theorem textOf_marks (s : String) : textOf (marks s) = .ok s := by
  rw [textOf, marks, charsOf_map_mark]
  exact congrArg Except.ok String.ofList_toList

/-! Skipping -/

theorem skip_plains {bs limit : Bytes} (selves : ∀ b ∈ bs, Plain b)
    (room : bs.length ≤ limit.length) (more : Bytes) :
    Skip.textUpTo limit (bs ++ more) = Skip.textUpTo (limit.drop bs.length) more := by
  induction bs generalizing limit with
  | nil => rfl
  | cons b bs ih =>
    obtain ⟨notQuote, notEscape, printing⟩ := selves b List.mem_cons_self
    cases limit with
    | nil => contradiction
    | cons _ limit =>
      simp only [List.cons_append, Skip.textUpTo, if_neg notQuote, if_neg notEscape,
        if_neg printing]
      exact ih (fun x here => selves x (List.mem_cons_of_mem _ here)) (Nat.le_of_succ_le_succ room)

theorem skip_short (s : Short) (x : UInt8) (limit bytes : Bytes) :
    Skip.textUpTo (x :: limit) ((Mark.short s).bytes ++ bytes) = Skip.textUpTo limit bytes := by
  cases s <;> rfl

/-- A text is skipped under every bound that has more bytes than its marks. -/
theorem skip_marks (ms : List Mark) (rest : Bytes) {limit : Bytes}
    (enough : (markBytes ms).length < limit.length) :
    Skip.textUpTo limit (markBytes ms ++ quote :: rest) = .ok rest := by
  induction ms generalizing limit with
  | nil =>
    cases limit with
    | nil => contradiction
    | cons _ limit => rfl
  | cons m ms ih =>
    rw [markBytes_cons, List.append_assoc]
    rw [markBytes_cons, List.length_append] at enough
    cases limit with
    | nil => contradiction
    | cons x limit =>
      rw [List.length_cons] at enough
      cases m with
      | plain c unescaped =>
        have room : (String.utf8EncodeChar c).length ≤ (x :: limit).length :=
          Nat.le_of_lt (Nat.lt_of_le_of_lt (Nat.le_add_right _ _) enough)
        change Skip.textUpTo _ (String.utf8EncodeChar c ++ _) = _
        rw [skip_plains (Mark.plain_bytes unescaped) room]
        refine ih ?_
        rw [List.length_drop, List.length_cons]
        exact Nat.lt_sub_of_add_lt (Nat.add_comm _ _ ▸ enough)
      | short s =>
        have two : (Mark.short s).bytes.length = 2 := rfl
        rw [skip_short]
        exact ih (by omega)
      | code u =>
        have six : (Mark.code u).bytes.length = 6 := rfl
        change Skip.textUpTo (x :: limit) (backslash :: letterU :: (u.bytes ++ _)) = _
        rw [Skip.textUpTo_hexEscape (hexEscape_bytes u _)]
        exact ih (by omega)

theorem skip_text (ms : List Mark) (rest : Bytes) :
    Skip.textBody (markBytes ms ++ quote :: rest) = .ok rest := by
  refine skip_marks ms rest ?_
  rw [List.length_append, List.length_cons]
  omega

end Spelling

end AdmissionGuest
