import AdmissionGuest.Proofs.Json.Spelling.Text
/-!
How readers get through a spelled document: past its blanks, and along the parts of its lists and
objects. A reader is steady if what it makes of a spelled document does not depend on where the
document stands; then what it makes of a list or an object is what it makes of the parts.
-/

namespace AdmissionGuest

open Ascii Scan

namespace Spelling

variable {bs : List Blank} {rest : Bytes} {d : Spelling}

@[simp]
theorem skipBlanks_blanks (bs : List Blank) (rest : Bytes) :
    skipBlanks (blanks bs ++ rest) = skipBlanks rest := by
  induction bs with
  | nil => rfl
  | cons b bs ih => cases b <;> exact ih

theorem stops_blanks (bs : List Blank) (stops : Stops rest) : Stops (blanks bs ++ rest) := by
  cases bs with
  | nil => exact stops
  | cons b bs => cases b <;> exact .cons rfl (by decide) rfl

/-- All ways in which a spelled document begins, and the bytes of the rest of it. -/
inductive Begins (rest : Bytes) : Spelling → Bytes → Prop where
  | null {tail : Bytes} (word : letters [letterU, 0x6C, 0x6C] tail = .ok ((), rest)) :
    Begins rest .null (letterN :: tail)
  | yes {tail : Bytes} (word : letters [letterR, letterU, 0x65] tail = .ok ((), rest)) :
    Begins rest (.flag true) (letterT :: tail)
  | no {tail : Bytes} (word : letters [0x61, 0x6C, 0x73, 0x65] tail = .ok ((), rest)) :
    Begins rest (.flag false) (letterF :: tail)
  | number {n : Numeral} {b : UInt8} {tail : Bytes} (leads : Leads b)
    (written : n.bytes ++ rest = b :: tail) : Begins rest (.number n) (b :: tail)
  | text (ms : List Mark) : Begins rest (.text ms) (quote :: (markBytes ms ++ quote :: rest))
  | list (inside : List Blank) (xs : List (Item Spelling)) :
    Begins rest (.list inside xs)
      (openList :: (blanks inside ++ (itemBytes true xs ++ closeList :: rest)))
  | object (inside : List Blank) (ms : List (Member Spelling)) :
    Begins rest (.object inside ms)
      (openObject :: (blanks inside ++ (memberBytes true ms ++ closeObject :: rest)))

theorem begins (d : Spelling) (rest : Bytes) : Begins rest d (d.bytes ++ rest) := by
  cases d with
  | null => exact .null rfl
  | flag b =>
    cases b with
    | true => exact .yes rfl
    | false => exact .no rfl
  | number n =>
    obtain ⟨b, tail, written, leads⟩ := n.leads
    have shown : n.bytes ++ rest = b :: (tail ++ rest) := by rw [written, List.cons_append]
    change Begins rest (.number n) (n.bytes ++ rest)
    rw [shown]
    exact .number leads shown
  | text ms =>
    rw [bytes, List.cons_append, List.append_assoc]
    exact .text ms
  | list inside xs =>
    rw [bytes, List.cons_append, List.append_assoc, List.append_assoc]
    exact .list inside xs
  | object inside ms =>
    rw [bytes, List.cons_append, List.append_assoc, List.append_assoc]
    exact .object inside ms

/-- A document begins with a byte that is neither blank nor ends a list. -/
theorem bytes_visible (d : Spelling) (rest : Bytes) :
    ∃ b tail, d.bytes ++ rest = b :: tail ∧ isBlank b = false ∧ b ≠ closeList := by
  have start := begins d rest
  generalize d.bytes ++ rest = visible at start
  cases start with
  | number leads => exact ⟨_, _, rfl, leads.visible⟩
  | null | yes | no | text | list | object => exact ⟨_, _, rfl, rfl, by decide⟩

theorem skipBlanks_bytes (bs : List Blank) (d : Spelling) (rest : Bytes) :
    skipBlanks (blanks bs ++ (d.bytes ++ rest)) = d.bytes ++ rest := by
  obtain ⟨b, tail, shown, visible, _⟩ := bytes_visible d rest
  rw [skipBlanks_blanks, shown, skipBlanks_cons visible]

theorem begins_blanks (bs : List Blank) (d : Spelling) (rest : Bytes) :
    Begins rest d (skipBlanks (blanks bs ++ (d.bytes ++ rest))) := by
  rw [skipBlanks_bytes]
  exact begins d rest

/-! Lists -/

section Lists

variable (first : Bool) (x : Item Spelling) (xs : List (Item Spelling))

theorem itemBytes_cons (rest : Bytes) :
    itemBytes first (x :: xs) ++ rest = (if first then [] else [comma]) ++
      (blanks x.before ++ (x.value.bytes ++ (blanks x.after ++ (itemBytes false xs ++ rest)))) := by
  simp only [itemBytes, List.append_assoc]

theorem length_itemBytes : xs.length ≤ (itemBytes first xs).length := by
  induction xs generalizing first with
  | nil => exact Nat.zero_le _
  | cons x xs ih =>
    obtain ⟨b, tail, shown, _⟩ := bytes_visible x.value []
    rw [List.append_nil] at shown
    have later := ih false
    simp only [itemBytes, shown, List.length_append, List.length_cons]
    omega

theorem stops_items (bs : List Blank) (rest : Bytes) :
    Stops (blanks bs ++ (itemBytes false xs ++ closeList :: rest)) := by
  refine stops_blanks bs ?_
  cases xs with
  | nil => exact .cons rfl (by decide) rfl
  | cons x xs =>
    rw [itemBytes_cons]
    exact .cons rfl (by decide) rfl

theorem nextItem_item (bs : List Blank) (rest : Bytes) :
    nextItem first (blanks bs ++ (itemBytes first (x :: xs) ++ rest)) =
      .ok (true, x.value.bytes ++ (blanks x.after ++ (itemBytes false xs ++ rest))) := by
  have item := skipBlanks_bytes x.before x.value (blanks x.after ++ (itemBytes false xs ++ rest))
  obtain ⟨b, tail, shown, visible, inside⟩ :=
    bytes_visible x.value (blanks x.after ++ (itemBytes false xs ++ rest))
  rw [shown] at item
  rw [itemBytes_cons, shown]
  unfold nextItem
  cases first with
  | true =>
    rw [if_pos rfl, List.nil_append, skipBlanks_blanks, item]
    exact (if_neg inside).trans (if_pos rfl)
  | false =>
    have here : skipBlanks (blanks bs ++ (comma :: (blanks x.before ++ b :: tail))) =
        comma :: (blanks x.before ++ b :: tail) := skipBlanks_blanks bs _
    rw [if_neg Bool.false_ne_true, List.cons_append, List.nil_append, here]
    dsimp only
    rw [if_neg (by decide), if_neg Bool.false_ne_true, if_pos rfl, item]
    exact if_neg inside

theorem nextItem_close (bs : List Blank) (rest : Bytes) :
    nextItem first (blanks bs ++ closeList :: rest) = .ok (false, closeList :: rest) := by
  have here : skipBlanks (blanks bs ++ closeList :: rest) = closeList :: rest :=
    skipBlanks_blanks bs _
  unfold nextItem
  rw [here]
  exact if_pos rfl

end Lists

/-! Objects -/

section Objects

variable (first : Bool) (m : Member Spelling) (ms : List (Member Spelling))

theorem memberBytes_cons (rest : Bytes) :
    memberBytes first (m :: ms) ++ rest = (if first then [] else [comma]) ++
      (blanks m.before ++ (quote :: (markBytes m.name ++ (quote :: (blanks m.beforeColon ++
        (colon :: (blanks m.afterColon ++ (m.value.bytes ++ (blanks m.after ++
          (memberBytes false ms ++ rest)))))))))) := by
  simp only [memberBytes, List.append_assoc, List.cons_append]

theorem length_memberBytes : ms.length ≤ (memberBytes first ms).length := by
  induction ms generalizing first with
  | nil => exact Nat.zero_le _
  | cons m ms ih =>
    have later := ih false
    simp only [memberBytes, List.length_append, List.length_cons]
    omega

theorem stops_members (bs : List Blank) (rest : Bytes) :
    Stops (blanks bs ++ (memberBytes false ms ++ closeObject :: rest)) := by
  refine stops_blanks bs ?_
  cases ms with
  | nil => exact .cons rfl (by decide) rfl
  | cons m ms =>
    rw [memberBytes_cons]
    exact .cons rfl (by decide) rfl

/-- What follows the name of a member. -/
def afterName (rest : Bytes) : Bytes :=
  blanks m.beforeColon ++ colon :: (blanks m.afterColon ++ (m.value.bytes ++ (blanks m.after ++
    (memberBytes false ms ++ rest))))

theorem nextName_follows (bs : List Blank) (rest : Bytes) :
    Follows (nextName first (blanks bs ++ (memberBytes first (m :: ms) ++ rest)))
      (some <$> textOf m.name) (afterName m ms rest) := by
  have name := (text_follows m.name (afterName m ms rest)).map some
  have quoted (bs : List Blank) :
      skipBlanks (blanks bs ++ quote :: (markBytes m.name ++ quote :: afterName m ms rest)) =
        quote :: (markBytes m.name ++ quote :: afterName m ms rest) :=
    skipBlanks_blanks bs _
  rw [memberBytes_cons]
  change Follows (nextName first (blanks bs ++ (_ ++ (blanks m.before ++ (quote ::
    (markBytes m.name ++ quote :: afterName m ms rest)))))) _ _
  unfold nextName
  cases first with
  | true =>
    rw [if_pos rfl, List.nil_append, skipBlanks_blanks, quoted]
    exact name
  | false =>
    have here : skipBlanks (blanks bs ++ (comma :: (blanks m.before ++ quote ::
          (markBytes m.name ++ quote :: afterName m ms rest)))) =
        comma :: (blanks m.before ++ quote ::
          (markBytes m.name ++ quote :: afterName m ms rest)) := skipBlanks_blanks bs _
    rw [if_neg Bool.false_ne_true, List.cons_append, List.nil_append, here]
    dsimp only
    rw [if_neg (by decide), if_neg Bool.false_ne_true, if_pos rfl, quoted]
    exact name

theorem nextName_close (bs : List Blank) (rest : Bytes) :
    nextName first (blanks bs ++ closeObject :: rest) = .ok (none, closeObject :: rest) := by
  have here : skipBlanks (blanks bs ++ closeObject :: rest) = closeObject :: rest :=
    skipBlanks_blanks bs _
  unfold nextName
  rw [here]
  exact if_pos rfl

theorem memberColon_blanks (bs : List Blank) (rest : Bytes) :
    memberColon (blanks bs ++ colon :: rest) = .ok ((), rest) := by
  have here : skipBlanks (blanks bs ++ colon :: rest) = colon :: rest := skipBlanks_blanks bs _
  unfold memberColon
  rw [here]
  exact if_pos rfl

end Objects

end Spelling

end AdmissionGuest
