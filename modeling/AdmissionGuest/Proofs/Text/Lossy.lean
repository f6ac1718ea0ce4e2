import AdmissionGuest.Proofs.Text.Utf8
/-!
What lossy decoding keeps. Bytes fall in one way into stretches of characters and ill-formed
prefixes between them, each of these as long as it can be; the text that is decoded has the
stretches as they are, in their order, and one replacement character for each ill-formed prefix.
Which bytes encode a character, and which begin one, is said without the decoder.
-/

namespace AdmissionGuest.Utf8

/-- A first part of the bytes of some character. -/
def Begins (part : Bytes) : Prop :=
  ∃ c, part <+: String.utf8EncodeChar c

/-- The part of ill-formed bytes that is taken for one: no character stands at its place, and it is
the longest that some character begins with, or a single byte if none begins with that. -/
structure Broken (part rest : Bytes) : Prop where
  some : part ≠ []
  unread : ∀ c, ¬ String.utf8EncodeChar c <+: part ++ rest
  longest : (Begins part ∧ ∀ longer, longer <+: part ++ rest → Begins longer →
      longer.length ≤ part.length) ∨
    ∃ b, part = [b] ∧ ¬ Begins [b]

inductive Part where
  | stretch (cs : List Char)
  | broken (bytes : Bytes)

/-- The characters that a part is shown as. -/
def Part.shown : Part → List Char
  | stretch cs => cs
  | broken _ => ['\uFFFD']

/-- How bytes fall into parts. A stretch goes on as long as characters follow. -/
inductive Falls : Bytes → List Part → Prop where
  | done : Falls [] []
  | stretch {cs : List Char} {rest : Bytes} {parts : List Part} (some : cs ≠ [])
      (ends : ∀ c, ¬ String.utf8EncodeChar c <+: rest) (later : Falls rest parts) :
      Falls (cs.flatMap String.utf8EncodeChar ++ rest) (.stretch cs :: parts)
  | broken {bytes rest : Bytes} {parts : List Part} (broken : Broken bytes rest)
      (later : Falls rest parts) : Falls (bytes ++ rest) (.broken bytes :: parts)

/-! A piece that is a character -/

/-- The lead bytes, by the number of bytes of a character. -/
theorem lead_cases (b : UInt8) :
    lead b = none ∨ (∃ n < 0x80, b = UInt8.ofNat n) ∨
      (∃ n, 2 ≤ n ∧ n < 0x20 ∧ b = UInt8.ofNat (n % 0x20 + 0xC0)) ∨
      (∃ n < 0x10, b = UInt8.ofNat (n % 0x10 + 0xE0)) ∨
      ∃ n < 5, b = UInt8.ofNat (n % 8 + 0xF0) := by
  have same {n m : Nat} (eq : b.toNat = n) (eq' : m = n) : b = UInt8.ofNat m := by
    rw [eq', ← eq, UInt8.ofNat_toNat]
  have least := b.toNat_lt
  by_cases one : b.toNat < 0x80
  · exact .inr (.inl ⟨_, one, same rfl rfl⟩)
  by_cases stray : b.toNat < 0xC2
  · left
    simp only [lead, if_neg one, if_pos stray]
  by_cases two : b.toNat < 0xE0
  · exact .inr (.inr (.inl ⟨b.toNat - 0xC0, by omega, by omega, same rfl (by omega)⟩))
  by_cases three : b.toNat < 0xF0
  · exact .inr (.inr (.inr (.inl ⟨b.toNat - 0xE0, by omega, same rfl (by omega)⟩)))
  by_cases four : b.toNat < 0xF5
  · exact .inr (.inr (.inr (.inr ⟨b.toNat - 0xF0, by omega, same rfl (by omega)⟩)))
  · left
    simp only [lead]
    repeat rw [if_neg (by omega)]

theorem follow_inv {more value : Nat} {low high : UInt8} {bytes rest : Bytes} {c : Char}
    (above : 0x80 ≤ low.toNat) (below : high.toNat ≤ 0xBF)
    (read : follow (more + 1) low high value bytes = (.character c, rest)) :
    ∃ n others, n < 0x40 ∧ bytes = UInt8.ofNat (n % 0x40 + 0x80) :: others ∧
      low.toNat ≤ n + 0x80 ∧ n + 0x80 ≤ high.toNat ∧
      follow more 0x80 0xBF (value * 0x40 + n) others = (.character c, rest) := by
  cases bytes with
  | nil => cases read
  | cons b others =>
    rw [follow] at read
    split at read
    next within =>
      rw [UInt8.le_iff_toNat_le, UInt8.le_iff_toNat_le] at within
      have bits : b.toNat % 0x40 = b.toNat - 0x80 := by omega
      refine ⟨b.toNat - 0x80, others, by omega, ?_, by omega, by omega, bits ▸ read⟩
      have byte : (b.toNat - 0x80) % 0x40 + 0x80 = b.toNat := by omega
      rw [byte, UInt8.ofNat_toNat]
    next => cases read

theorem toNat_ofNat {v : Nat} (valid : v < 0xD800 ∨ 0xDFFF < v ∧ v < 0x110000) :
    (Char.ofNat v).val.toNat = v := by
  rw [Char.ofNat, dif_pos valid]
  rfl

/-- The bytes that are taken for a character are its encoding. The cases are the lead bytes; their
ranges leave out what is too short for a form of that length, surrogates, and what is no code
point. -/
theorem encodeChar_of_piece {b : UInt8} {bytes rest : Bytes} {c : Char}
    (read : piece b bytes = (.character c, rest)) :
    b :: bytes = String.utf8EncodeChar c ++ rest := by
  rcases lead_cases b with none | ⟨n, small, rfl⟩ | ⟨n, least, small, rfl⟩ | ⟨n, small, rfl⟩ |
    ⟨n, small, rfl⟩
  · rw [piece, none] at read
    cases read
  · simp only [piece, lead_one small, follow, Prod.mk.injEq, Piece.character.injEq] at read
    obtain ⟨rfl, rfl⟩ := read
    simp only [String.utf8EncodeChar, toNat_ofNat (v := n) (by omega)]
    rw [if_pos (by omega)]
    rfl
  · simp only [piece, lead_two least small] at read
    obtain ⟨m, bytes, room, rfl, -, -, read⟩ := follow_inv (by decide) (by decide) read
    simp only [follow, Prod.mk.injEq, Piece.character.injEq] at read
    obtain ⟨rfl, rfl⟩ := read
    have high : (n * 0x40 + m) / 64 % 0x20 = n % 0x20 := by omega
    have low : (n * 0x40 + m) % 0x40 = m % 0x40 := by omega
    simp only [String.utf8EncodeChar, toNat_ofNat (v := n * 0x40 + m) (by omega), high, low]
    rw [if_neg (by omega), if_pos (by omega)]
    rfl
  · simp only [piece, lead_three small] at read
    obtain ⟨m, bytes, room, rfl, above, below, read⟩ :=
      follow_inv (by split <;> decide) (by split <;> decide) read
    obtain ⟨k, bytes, room', rfl, -, -, read⟩ := follow_inv (by decide) (by decide) read
    simp only [follow, Prod.mk.injEq, Piece.character.injEq] at read
    obtain ⟨rfl, rfl⟩ := read
    have short : n = 0 → 0xA0 ≤ m + 0x80 := by
      intro zero
      rwa [if_pos zero] at above
    have surrogate : n = 0xD → m + 0x80 ≤ 0x9F := by
      intro last
      rwa [if_pos last] at below
    generalize value : (n * 0x40 + m) * 0x40 + k = v
    have high : v / 4096 % 0x10 = n % 0x10 := by omega
    have middle : v / 64 % 0x40 = m % 0x40 := by omega
    have low : v % 0x40 = k % 0x40 := by omega
    simp only [String.utf8EncodeChar, toNat_ofNat (v := v) (by omega), high, middle, low]
    rw [if_neg (by omega), if_neg (by omega), if_pos (by omega)]
    rfl
  · simp only [piece, lead_four small] at read
    obtain ⟨m, bytes, room, rfl, above, below, read⟩ :=
      follow_inv (by split <;> decide) (by split <;> decide) read
    obtain ⟨k, bytes, room', rfl, -, -, read⟩ := follow_inv (by decide) (by decide) read
    obtain ⟨j, bytes, room'', rfl, -, -, read⟩ := follow_inv (by decide) (by decide) read
    simp only [follow, Prod.mk.injEq, Piece.character.injEq] at read
    obtain ⟨rfl, rfl⟩ := read
    have short : n = 0 → 0x90 ≤ m + 0x80 := by
      intro zero
      rwa [if_pos zero] at above
    have last : n = 4 → m + 0x80 ≤ 0x8F := by
      intro last
      rwa [if_pos last] at below
    generalize value : ((n * 0x40 + m) * 0x40 + k) * 0x40 + j = v
    have first : v / 262144 % 8 = n % 8 := by omega
    have high : v / 4096 % 0x40 = m % 0x40 := by omega
    have middle : v / 64 % 0x40 = k % 0x40 := by omega
    have low : v % 0x40 = j % 0x40 := by omega
    simp only [String.utf8EncodeChar, toNat_ofNat (v := v) (by omega), first, high, middle, low]
    rw [if_neg (by omega), if_neg (by omega), if_neg (by omega)]
    rfl

theorem piece_of_begins {b : UInt8} {bytes : Bytes} {c : Char}
    (begins : String.utf8EncodeChar c <+: b :: bytes) :
    ∃ rest, piece b bytes = (.character c, rest) := by
  obtain ⟨rest, whole⟩ := begins
  obtain ⟨b', more, encoded, read⟩ := piece_encodeChar c rest
  rw [encoded] at whole
  obtain ⟨rfl, rfl⟩ := List.cons.inj whole
  exact ⟨rest, read⟩

/-! A piece that is none -/

theorem lead_range {b : UInt8} {l : Lead} (led : lead b = some l) : l.low ≤ l.high := by
  rcases lead_cases b with none | ⟨n, small, rfl⟩ | ⟨n, least, small, rfl⟩ | ⟨n, small, rfl⟩ |
    ⟨n, small, rfl⟩
  · exact nomatch none.symm.trans led
  · cases (lead_one small).symm.trans led
    exact (by decide : (0x80 : UInt8) ≤ 0xBF)
  · cases (lead_two least small).symm.trans led
    exact (by decide : (0x80 : UInt8) ≤ 0xBF)
  · cases (lead_three small).symm.trans led
    interval_cases n <;> decide
  · cases (lead_four small).symm.trans led
    interval_cases n <;> decide

/-- Whatever was announced can be supplied. -/
theorem follow_supplied (more : Nat) {low high : UInt8} (range : low ≤ high) (value : Nat) :
    ∃ bytes c, follow more low high value bytes = (.character c, []) := by
  induction more generalizing low high value with
  | zero => exact ⟨[], _, rfl⟩
  | succ more ih =>
    obtain ⟨bytes, c, read⟩ := ih (by decide : (0x80 : UInt8) ≤ 0xBF) (value * 0x40 + low.toNat % 0x40)
    refine ⟨low :: bytes, c, ?_⟩
    rw [follow, if_pos ⟨UInt8.le_refl low, range⟩, read]

/-- Reading ends early at a byte that does not fit, or at the end of the bytes. What was read until
then can be completed, but not by going on with that byte. -/
theorem follow_illFormed {more value : Nat} {low high : UInt8} (range : low ≤ high)
    {bytes rest : Bytes} (read : follow more low high value bytes = (.illFormed, rest)) :
    ∃ part, bytes = part ++ rest ∧
      (∃ missing c, follow more low high value (part ++ missing) = (.character c, [])) ∧
      ∀ b, rest.head? = some b → ∀ tail,
        (follow more low high value (part ++ b :: tail)).1 = .illFormed := by
  induction more generalizing low high value bytes with
  | zero => exact nomatch read
  | succ more ih =>
    cases bytes with
    | nil =>
      cases read
      exact ⟨[], rfl, follow_supplied _ range value, nofun⟩
    | cons b bytes =>
      rw [follow] at read
      split at read
      next within =>
        obtain ⟨part, rfl, ⟨missing, c, completed⟩, stuck⟩ := ih (by decide) read
        refine ⟨b :: part, rfl, ⟨missing, c, ?_⟩, ?_⟩
        · rw [List.cons_append, follow, if_pos within, completed]
        · intro next same tail
          rw [List.cons_append, follow, if_pos within, stuck next same]
      next without =>
        cases read
        refine ⟨[], rfl, follow_supplied _ range value, ?_⟩
        intro next same tail
        cases same
        rw [List.nil_append, follow, if_neg without]

theorem Begins.of_prefix {part longer : Bytes} (begins : Begins longer) (within : part <+: longer) :
    Begins part := by
  obtain ⟨c, before⟩ := begins
  exact ⟨c, within.trans before⟩

/-- A byte that announces nothing begins no character. -/
theorem not_begins_of_lead {b : UInt8} (none : lead b = none) : ¬ Begins [b] := by
  rintro ⟨c, more, encoded⟩
  have whole : String.utf8EncodeChar c <+: b :: more := by
    rw [← encoded]
    exact List.prefix_refl _
  obtain ⟨rest, read⟩ := piece_of_begins whole
  rw [piece, none] at read
  cases read

/-- Where reading is stuck, no longer beginning of a character stands: it would go on with the byte
that does not fit. -/
theorem longest_of_stuck {b : UInt8} {part rest longer : Bytes}
    (stuck : ∀ next, rest.head? = some next → ∀ tail,
      (piece b (part ++ next :: tail)).1 = .illFormed)
    (within : longer <+: b :: part ++ rest) (begins : Begins longer) :
    longer.length ≤ (b :: part).length := by
  by_contra long
  obtain ⟨further, rfl⟩ : b :: part <+: longer :=
    List.prefix_of_prefix_length_le (List.prefix_append _ _) within (by omega)
  obtain ⟨c, more, encoded⟩ := begins
  obtain ⟨left, same⟩ := within
  cases further with
  | nil => simp at long
  | cons next further =>
    have here : rest.head? = some next := by
      rw [List.append_assoc] at same
      rw [← List.append_cancel_left same]
      rfl
    have whole : String.utf8EncodeChar c <+: b :: (part ++ next :: (further ++ more)) := by
      rw [← encoded]
      simp
    obtain ⟨_, character⟩ := piece_of_begins whole
    have ended := stuck next here (further ++ more)
    rw [character] at ended
    exact nomatch ended

/-- What is taken for ill-formed is the whole ill-formed prefix, and no more. -/
theorem broken_of_piece {b : UInt8} {bytes rest : Bytes} (read : piece b bytes = (.illFormed, rest)) :
    ∃ part, b :: bytes = part ++ rest ∧ Broken part rest := by
  have unread : ∀ c, ¬ String.utf8EncodeChar c <+: b :: bytes := by
    intro c begins
    obtain ⟨_, character⟩ := piece_of_begins begins
    cases character.symm.trans read
  cases led : lead b with
  | none =>
    rw [piece, led] at read
    cases read
    exact ⟨[b], rfl, List.cons_ne_nil _ _, unread, .inr ⟨b, rfl, not_begins_of_lead led⟩⟩
  | some l =>
    have follows (bytes : Bytes) : piece b bytes = follow l.more l.low l.high l.value bytes := by
      rw [piece, led]
    rw [follows] at read
    obtain ⟨part, rfl, ⟨missing, c, completed⟩, stuck⟩ := follow_illFormed (lead_range led) read
    simp only [← follows] at completed stuck
    refine ⟨b :: part, rfl, List.cons_ne_nil _ _, unread, .inl ⟨⟨c, missing, ?_⟩, ?_⟩⟩
    · rw [← List.append_nil (String.utf8EncodeChar c), ← encodeChar_of_piece completed]
      rfl
    · intro longer within begins
      exact longest_of_stuck stuck within begins

/-! Bytes and their pieces -/

/-- A place in the bytes where a character stands, and one where none does. -/
theorem piece_splits (b : UInt8) (bytes : Bytes) :
    (∃ c rest, piece b bytes = (.character c, rest) ∧
      b :: bytes = String.utf8EncodeChar c ++ rest) ∨
    ∃ part rest, piece b bytes = (.illFormed, rest) ∧ b :: bytes = part ++ rest ∧
      Broken part rest := by
  cases read : piece b bytes with
  | mk p rest =>
    cases p with
    | character c => exact .inl ⟨c, rest, rfl, encodeChar_of_piece read⟩
    | illFormed =>
      obtain ⟨part, whole, broken⟩ := broken_of_piece read
      exact .inr ⟨part, rest, rfl, whole, broken⟩

theorem encodeChar_ne_nil (c : Char) : String.utf8EncodeChar c ≠ [] := by
  obtain ⟨b, more, encoded, _⟩ := piece_encodeChar c []
  rw [encoded]
  exact nofun

theorem not_at_end (c : Char) : ¬ String.utf8EncodeChar c <+: [] :=
  fun before => encodeChar_ne_nil c (List.prefix_nil.mp before)

theorem length_piece (b : UInt8) (bytes : Bytes) : (piece b bytes).2.length ≤ bytes.length := by
  have shorter {first rest : Bytes} (some : first ≠ []) (whole : b :: bytes = first ++ rest) :
      rest.length ≤ bytes.length := by
    have lengths := congrArg List.length whole
    have positive := List.length_pos_iff.mpr some
    rw [List.length_cons, List.length_append] at lengths
    omega
  rcases piece_splits b bytes with ⟨c, rest, read, whole⟩ | ⟨part, rest, read, whole, broken⟩
  · rw [read]
    exact shorter (encodeChar_ne_nil c) whole
  · rw [read]
    exact shorter broken.some whole

/-- More fuel than bytes cuts no further. -/
theorem cut_of_enough {fuel : Nat} {bytes : Bytes} (enough : bytes.length ≤ fuel) :
    cut fuel bytes = pieces bytes := by
  have more {fuel fuel' : Nat} {bytes : Bytes} (enough : bytes.length ≤ fuel)
      (enough' : bytes.length ≤ fuel') : cut fuel bytes = cut fuel' bytes := by
    induction fuel generalizing fuel' bytes with
    | zero =>
      obtain rfl := List.eq_nil_of_length_eq_zero (Nat.le_zero.mp enough)
      cases fuel' <;> rfl
    | succ fuel ih =>
      cases bytes with
      | nil => cases fuel' <;> rfl
      | cons b bytes =>
        cases fuel' with
        | zero => exact nomatch enough'
        | succ fuel' =>
          have length := length_piece b bytes
          rw [List.length_cons] at enough enough'
          simp only [cut, ih (show (piece b bytes).2.length ≤ fuel by omega)
            (show (piece b bytes).2.length ≤ fuel' by omega)]
  exact more enough (Nat.le_refl _)

theorem pieces_cons (b : UInt8) (bytes : Bytes) :
    pieces (b :: bytes) = (piece b bytes).1 :: pieces (piece b bytes).2 := by
  rw [← cut_of_enough (length_piece b bytes)]
  rfl

theorem pieces_stretch (cs : List Char) (rest : Bytes) :
    pieces (cs.flatMap String.utf8EncodeChar ++ rest) = cs.map .character ++ pieces rest := by
  induction cs with
  | nil => rfl
  | cons c cs ih =>
    obtain ⟨b, more, encoded, read⟩ :=
      piece_encodeChar c (cs.flatMap String.utf8EncodeChar ++ rest)
    rw [List.flatMap_cons, List.append_assoc, encoded, List.cons_append, pieces_cons, read, ih]
    rfl

namespace Broken

variable {part other rest rest' : Bytes}

/-- Where bytes are ill-formed, one part of them is taken. -/
theorem unique (broken : Broken part rest) (broken' : Broken other rest')
    (same : part ++ rest = other ++ rest') : part = other ∧ rest = rest' := by
  have length : part.length = other.length := by
    have single {b : UInt8} {part rest tail : Bytes} (some : part ≠ []) (begins : Begins part)
        (whole : part ++ rest = [b] ++ tail) : Begins [b] := by
      cases part with
      | nil => exact absurd rfl some
      | cons b' part =>
        cases whole
        exact begins.of_prefix (List.prefix_append [b] part)
    rcases broken.longest with ⟨begins, longest⟩ | ⟨b, rfl, none⟩ <;>
      rcases broken'.longest with ⟨begins', longest'⟩ | ⟨b', rfl, none'⟩
    · apply Nat.le_antisymm
      · exact longest' part (same ▸ List.prefix_append _ _) begins
      · exact longest other (same ▸ List.prefix_append _ _) begins'
    · exact absurd (single broken.some begins same) none'
    · exact absurd (single broken'.some begins' same.symm) none
    · rfl
  exact List.append_inj same length

theorem pieces_append (broken : Broken part rest) :
    pieces (part ++ rest) = .illFormed :: pieces rest := by
  obtain ⟨b, bytes, rfl⟩ := List.exists_cons_of_ne_nil broken.some
  rcases piece_splits b (bytes ++ rest) with
    ⟨c, left, read, whole⟩ | ⟨part, left, read, whole, broken'⟩
  · exact absurd ⟨left, whole.symm⟩ (broken.unread c)
  · obtain ⟨_, rfl⟩ := broken.unique broken' whole
    rw [List.cons_append, pieces_cons, read]

end Broken

/-! Parts -/

/-- A character in front of parts: it belongs to the stretch that they begin with. -/
def Part.consChar (c : Char) : List Part → List Part
  | .stretch cs :: parts => .stretch (c :: cs) :: parts
  | parts => .stretch [c] :: parts

theorem Falls.consChar {bytes : Bytes} {parts : List Part} (falls : Falls bytes parts) (c : Char) :
    Falls (String.utf8EncodeChar c ++ bytes) (Part.consChar c parts) := by
  have alone : [c].flatMap String.utf8EncodeChar = String.utf8EncodeChar c :=
    List.flatMap_singleton _ c
  cases falls with
  | done =>
    rw [← alone]
    exact .stretch nofun not_at_end .done
  | stretch some ends later =>
    rw [← List.append_assoc, ← List.flatMap_cons]
    exact .stretch nofun ends later
  | broken broken later =>
    rw [← alone]
    exact .stretch nofun broken.unread (.broken broken later)

theorem exists_falls (bytes : Bytes) : ∃ parts, Falls bytes parts := by
  induction length : bytes.length using Nat.strong_induction_on generalizing bytes with
  | _ n ih =>
    cases bytes with
    | nil => exact ⟨[], .done⟩
    | cons b bytes =>
      have shorter := length_piece b bytes
      rw [List.length_cons] at length
      obtain ⟨parts, falls⟩ := ih _ (by omega) (piece b bytes).2 rfl
      rcases piece_splits b bytes with ⟨c, rest, read, whole⟩ | ⟨part, rest, read, whole, broken⟩
      · rw [read] at falls
        exact ⟨_, whole ▸ falls.consChar c⟩
      · rw [read] at falls
        exact ⟨_, whole ▸ Falls.broken broken falls⟩

theorem encodeChar_inj {c c' : Char} {rest rest' : Bytes}
    (same : String.utf8EncodeChar c ++ rest = String.utf8EncodeChar c' ++ rest') :
    c = c' ∧ rest = rest' := by
  obtain ⟨b, more, encoded, read⟩ := piece_encodeChar c rest
  obtain ⟨b', more', encoded', read'⟩ := piece_encodeChar c' rest'
  rw [encoded, encoded', List.cons_append, List.cons_append] at same
  obtain ⟨rfl, tails⟩ := List.cons.inj same
  rw [tails, read'] at read
  cases read
  exact ⟨rfl, rfl⟩

/-- A stretch that ends where no character follows is as long as any other from the same place. -/
theorem stretch_unique {cs cs' : List Char} {rest rest' : Bytes}
    (ends : ∀ c, ¬ String.utf8EncodeChar c <+: rest)
    (ends' : ∀ c, ¬ String.utf8EncodeChar c <+: rest')
    (same : cs.flatMap String.utf8EncodeChar ++ rest =
      cs'.flatMap String.utf8EncodeChar ++ rest') : cs = cs' ∧ rest = rest' := by
  induction cs generalizing cs' with
  | nil =>
    cases cs' with
    | nil => exact ⟨rfl, same⟩
    | cons c cs' =>
      rw [List.flatMap_cons, List.append_assoc] at same
      exact absurd ⟨_, same.symm⟩ (ends c)
  | cons c cs ih =>
    rw [List.flatMap_cons, List.append_assoc] at same
    cases cs' with
    | nil => exact absurd ⟨_, same⟩ (ends' c)
    | cons c' cs' =>
      rw [List.flatMap_cons, List.append_assoc] at same
      obtain ⟨rfl, others⟩ := encodeChar_inj same
      obtain ⟨rfl, rest⟩ := ih others
      exact ⟨rfl, rest⟩

theorem stretch_begins {cs : List Char} (some : cs ≠ []) (rest : Bytes) :
    ∃ c, String.utf8EncodeChar c <+: cs.flatMap String.utf8EncodeChar ++ rest := by
  obtain ⟨c, cs, rfl⟩ := List.exists_cons_of_ne_nil some
  rw [List.flatMap_cons, List.append_assoc]
  exact ⟨c, List.prefix_append _ _⟩

/-- There is one way in which bytes fall into parts. What stands at the front decides which kind of
part comes first, and how far it goes. -/
theorem Falls.unique {bytes : Bytes} {parts parts' : List Part} (falls : Falls bytes parts)
    (falls' : Falls bytes parts') : parts = parts' := by
  induction falls generalizing parts' with
  | done =>
    generalize whole : ([] : Bytes) = bytes at falls'
    cases falls' with
    | done => rfl
    | @stretch cs rest _ some _ _ =>
      obtain ⟨c, begins⟩ := stretch_begins some rest
      exact absurd (whole ▸ begins) (not_at_end c)
    | broken broken _ => exact absurd (List.append_eq_nil_iff.mp whole.symm).1 broken.some
  | @stretch cs rest parts some ends later ih =>
    generalize whole : cs.flatMap String.utf8EncodeChar ++ rest = bytes at falls'
    obtain ⟨c, begins⟩ := stretch_begins some rest
    cases falls' with
    | done => exact absurd (whole ▸ begins) (not_at_end c)
    | stretch _ ends' later' =>
      obtain ⟨rfl, rfl⟩ := stretch_unique ends ends' whole
      rw [ih later']
    | broken broken _ => exact absurd (whole ▸ begins) (broken.unread c)
  | @broken part rest parts broken later ih =>
    generalize whole : part ++ rest = bytes at falls'
    cases falls' with
    | done => exact absurd (List.append_eq_nil_iff.mp whole).1 broken.some
    | @stretch cs rest' _ some _ _ =>
      obtain ⟨c, begins⟩ := stretch_begins some rest'
      exact absurd (whole ▸ begins) (broken.unread c)
    | broken broken' later' =>
      obtain ⟨rfl, rfl⟩ := broken.unique broken' whole
      rw [ih later']

/-- The text that is decoded shows the parts. -/
theorem Falls.decodeLossy_eq {bytes : Bytes} {parts : List Part} (falls : Falls bytes parts) :
    decodeLossy bytes = String.ofList (parts.flatMap Part.shown) := by
  have shown : (pieces bytes).map Piece.shown = parts.flatMap Part.shown := by
    induction falls with
    | done => rfl
    | stretch some ends later ih =>
      rw [pieces_stretch, List.map_append, ih, List.flatMap_cons, List.map_map]
      exact congrArg (· ++ _) (List.map_id _)
    | broken broken later ih =>
      rw [broken.pieces_append, List.map_cons, ih]
      rfl
  rw [decodeLossy, shown]

/-- How a text stands for bytes. Bytes of a text stand for that text. Other bytes fall, in one way,
into stretches of characters and ill-formed prefixes, and the text shows these. -/
structure Shows (bytes : Bytes) (text : String) : Prop where
  formed : ∀ other, bytes = encode other → text = other
  parts : ∃ parts, Falls bytes parts ∧ (∀ other, Falls bytes other → other = parts) ∧
    text = String.ofList (parts.flatMap Part.shown)

theorem shows_decodeLossy (bytes : Bytes) : Shows bytes (decodeLossy bytes) := by
  constructor
  · rintro other rfl
    exact decodeLossy_encode other
  · obtain ⟨parts, falls⟩ := exists_falls bytes
    exact ⟨parts, falls, fun _ falls' => falls'.unique falls, falls.decodeLossy_eq⟩

end AdmissionGuest.Utf8
