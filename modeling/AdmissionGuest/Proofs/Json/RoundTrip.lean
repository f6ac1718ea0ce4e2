import AdmissionGuest.Json.Read
import AdmissionGuest.Proofs.Json.Numeral
import AdmissionGuest.Proofs.Json.Text
/-!
A document is read back from its text, up to the limit of nesting and as long as its numbers are
integers. The lists and objects of the text are treated once for every reader of their parts.
-/

namespace AdmissionGuest

open Ascii Scan

namespace Json

mutual

/-- Whether every number is an integer that is read as such. -/
def Whole : Json → Prop
  | number n => n.Whole
  | list xs => WholeItems xs
  | object ms => WholeMembers ms
  | _ => True

def WholeItems : List Json → Prop
  | [] => True
  | x :: xs => x.Whole ∧ WholeItems xs

def WholeMembers : List (String × Json) → Prop
  | [] => True
  | (_, x) :: ms => x.Whole ∧ WholeMembers ms

end

mutual

/-- How many lists and objects are inside each other. -/
def height : Json → Nat
  | list xs => heightItems xs + 1
  | object ms => heightMembers ms + 1
  | _ => 0

def heightItems : List Json → Nat
  | [] => 0
  | x :: xs => max x.height (heightItems xs)

def heightMembers : List (String × Json) → Nat
  | [] => 0
  | (_, x) :: ms => max x.height (heightMembers ms)

end

end Json

namespace Scan

/-- A text that begins a value: neither a blank comes first nor the end of a list. -/
def Opens (bytes : Bytes) : Prop :=
  ∃ b rest, bytes = b :: rest ∧ isBlank b = false ∧ b ≠ closeList

theorem skipBlanks_cons {b : UInt8} {rest : Bytes} (visible : isBlank b = false) :
    skipBlanks (b :: rest) = b :: rest := by
  simp [skipBlanks, visible]

theorem opens_write {j : Json} (whole : j.Whole) : Opens j.write := by
  match j, whole with
  | .null, _ | .flag true, _ | .flag false, _ | .text _, _ | .list [], _ | .list (_ :: _), _
  | .object [], _ | .object (_ :: _), _ =>
    exact ⟨_, _, rfl, rfl, by decide⟩
  | .number n, whole =>
    obtain ⟨b, bs, text, leads⟩ := leads_write whole
    exact ⟨b, bs, text, leads.visible⟩

/-! Lists -/

theorem nextItem_opens {bytes : Bytes} (opens : Opens bytes) (rest : Bytes) :
    nextItem true (bytes ++ rest) = .ok (true, bytes ++ rest) := by
  obtain ⟨b, tail, rfl, visible, inside⟩ := opens
  simp only [List.cons_append, nextItem, skipBlanks_cons visible, if_neg inside, if_true]

theorem nextItem_comma {bytes : Bytes} (opens : Opens bytes) (rest : Bytes) :
    nextItem false (comma :: bytes ++ rest) = .ok (true, bytes ++ rest) := by
  obtain ⟨b, tail, rfl, visible, inside⟩ := opens
  have here : skipBlanks (comma :: b :: tail ++ rest) = comma :: b :: tail ++ rest := rfl
  simp only [List.cons_append] at here ⊢
  simp only [nextItem, here, skipBlanks_cons visible, if_neg inside,
    if_neg (show comma ≠ closeList by decide), if_true, Bool.false_eq_true, if_false]

theorem stops_writeItems (xs : List Json) (rest : Bytes) : Stops (Json.writeItems xs ++ rest) := by
  cases xs with
  | nil => exact .cons rfl (by decide) rfl
  | cons x xs => exact .cons rfl (by decide) rfl

theorem length_writeItems (xs : List Json) : xs.length < (Json.writeItems xs).length := by
  induction xs with
  | nil => exact Nat.one_pos
  | cons x xs ih =>
    simp only [Json.writeItems, List.length_cons, List.length_append]
    omega

section Lists

variable {α : Type} {item : Reader α} {document : α → Json}

/-- Whether values are read back from their documents wherever these stand. -/
def ReadsBack (item : Reader α) (document : α → Json) (x : α) : Prop :=
  ∀ rest, Stops rest → item ((document x).write ++ rest) = .ok (x, rest)

theorem items_writeItems {xs : List α} (whole : ∀ x ∈ xs, (document x).Whole)
    (each : ∀ x ∈ xs, ReadsBack item document x) {bound : Bytes} (enough : xs.length < bound.length)
    (rest : Bytes) :
    items item bound false (Json.writeItems (xs.map document) ++ rest) =
      .ok (xs, closeList :: rest) := by
  induction xs generalizing bound with
  | nil =>
    cases bound with
    | nil => contradiction
    | cons _ bound => rfl
  | cons x xs ih =>
    cases bound with
    | nil => contradiction
    | cons _ bound =>
      have opens := opens_write (whole x List.mem_cons_self)
      have next := nextItem_comma opens (Json.writeItems (xs.map document) ++ rest)
      have first := each x List.mem_cons_self _ (stops_writeItems (xs.map document) rest)
      have tail := ih (fun y hy => whole y (List.mem_cons_of_mem _ hy))
        (fun y hy => each y (List.mem_cons_of_mem _ hy)) (Nat.lt_of_succ_lt_succ enough)
      simp only [List.map_cons, Json.writeItems, List.cons_append, List.append_assoc] at next ⊢
      simp only [items, next, first, tail, bind, Except.bind, if_true]
      rfl

/-- A list is read back after its opening bracket if its items are. -/
theorem listBody_write {xs : List α} (whole : ∀ x ∈ xs, (document x).Whole)
    (each : ∀ x ∈ xs, ReadsBack item document x) (rest : Bytes) :
    ∃ bytes, (Json.list (xs.map document)).write = openList :: bytes ∧
      listBody item (bytes ++ rest) = .ok (xs, rest) := by
  cases xs with
  | nil => exact ⟨_, rfl, rfl⟩
  | cons x xs =>
    refine ⟨(document x).write ++ Json.writeItems (xs.map document), rfl, ?_⟩
    have opens := opens_write (whole x List.mem_cons_self)
    have next := nextItem_opens opens (Json.writeItems (xs.map document) ++ rest)
    have first := each x List.mem_cons_self _ (stops_writeItems (xs.map document) rest)
    have enough : xs.length <
        ((document x).write ++ (Json.writeItems (xs.map document) ++ rest)).length := by
      have tail := length_writeItems (xs.map document)
      simp only [List.length_map] at tail
      simp only [List.length_append]
      omega
    have tail := items_writeItems (fun y hy => whole y (List.mem_cons_of_mem _ hy))
      (fun y hy => each y (List.mem_cons_of_mem _ hy)) enough rest
    rw [List.append_assoc]
    simp only [listBody, restOfList, items, next, first, tail, bind, Except.bind, if_true]
    rfl

end Lists

/-! Objects -/

theorem nextName_first (name : String) (rest : Bytes) :
    nextName true (writeText name ++ rest) = .ok (some name, rest) := by
  have body := textBody_escaped name rest
  have here : skipBlanks (writeText name ++ rest) =
      quote :: (name.toList.flatMap escapedChar ++ quote :: rest) := by
    simp only [writeText, List.cons_append, List.append_assoc, List.nil_append]
    rfl
  simp only [nextName, here, body, bind, Except.bind, if_true,
    if_neg (show quote ≠ closeObject by decide)]
  rfl

theorem nextName_comma (name : String) (rest : Bytes) :
    nextName false (comma :: writeText name ++ rest) = .ok (some name, rest) := by
  have body := textBody_escaped name rest
  have here : skipBlanks (comma :: writeText name ++ rest) = comma :: (writeText name ++ rest) :=
    rfl
  have next : skipBlanks (writeText name ++ rest) =
      quote :: (name.toList.flatMap escapedChar ++ quote :: rest) := by
    simp only [writeText, List.cons_append, List.append_assoc, List.nil_append]
    rfl
  simp only [nextName, here, next, body, bind, Except.bind, if_true, Bool.false_eq_true, if_false,
    if_neg (show comma ≠ closeObject by decide)]
  rfl

theorem stops_writeMembers (ms : List (String × Json)) (rest : Bytes) :
    Stops (Json.writeMembers ms ++ rest) := by
  cases ms with
  | nil => exact .cons rfl (by decide) rfl
  | cons m ms => exact .cons rfl (by decide) rfl

theorem length_writeMembers (ms : List (String × Json)) :
    ms.length < (Json.writeMembers ms).length := by
  induction ms with
  | nil => exact Nat.one_pos
  | cons m ms ih =>
    simp only [Json.writeMembers, List.length_cons, List.length_append]
    omega

section Objects

variable {σ : Type} {member : String → σ → Reader σ}

/-- Reading the members of an object from the colon of each, one after the other, leads from one
state to another. -/
inductive MemberRun (member : String → σ → Reader σ) : List (String × Json) → σ → σ → Prop where
  | nil (s : σ) : MemberRun member [] s s
  | cons {name : String} {x : Json} {ms : List (String × Json)} {s t u : σ}
      (first : ∀ rest, Stops rest → member name s (colon :: x.write ++ rest) = .ok (t, rest))
      (more : MemberRun member ms t u) : MemberRun member ((name, x) :: ms) s u

theorem members_writeMembers {ms : List (String × Json)} {s t : σ} (run : MemberRun member ms s t)
    {bound : Bytes} (enough : ms.length < bound.length) (rest : Bytes) :
    members member bound false s (Json.writeMembers ms ++ rest) = .ok (t, closeObject :: rest) := by
  induction run generalizing bound with
  | nil s =>
    cases bound with
    | nil => contradiction
    | cons _ bound => rfl
  | @cons name x ms s t u first more ih =>
    cases bound with
    | nil => contradiction
    | cons _ bound =>
      have next := nextName_comma name (colon :: x.write ++ (Json.writeMembers ms ++ rest))
      have head := first _ (stops_writeMembers ms rest)
      have tail := ih (Nat.lt_of_succ_lt_succ enough)
      simp only [Json.writeMembers, List.cons_append, List.append_assoc] at next head ⊢
      simp only [members, next, head, tail, bind, Except.bind]

/-- An object is read back after its opening bracket if its members are. -/
theorem objectBody_write {ms : List (String × Json)} {s t : σ} (run : MemberRun member ms s t)
    (rest : Bytes) :
    ∃ bytes, (Json.object ms).write = openObject :: bytes ∧
      objectBody member s (bytes ++ rest) = .ok (t, rest) := by
  cases run with
  | nil => exact ⟨_, rfl, rfl⟩
  | @cons name x ms _ u _ first more =>
    refine ⟨writeText name ++ colon :: x.write ++ Json.writeMembers ms, rfl, ?_⟩
    have next := nextName_first name (colon :: x.write ++ (Json.writeMembers ms ++ rest))
    have head := first _ (stops_writeMembers ms rest)
    have enough : ms.length <
        (writeText name ++ colon :: (x.write ++ (Json.writeMembers ms ++ rest))).length := by
      have tail := length_writeMembers ms
      simp only [List.length_append, List.length_cons]
      omega
    have tail := members_writeMembers more enough rest
    simp only [List.cons_append, List.append_assoc] at next head ⊢
    simp only [objectBody, members, next, head, tail, bind, Except.bind]
    rfl

end Objects

end Scan

namespace Json

/-- How a member of a document is kept: in front of those before it. -/
def keepMember (inner : Reader Json) (name : String) (ms : List (String × Json)) :
    Reader (List (String × Json)) := do
  memberColon
  return (name, ← inner) :: ms

theorem keepMember_colon (inner : Reader Json) (name : String) (ms : List (String × Json))
    (bytes : Bytes) :
    keepMember inner name ms (colon :: bytes) =
      (inner bytes >>= fun r => pure ((name, r.1) :: ms, r.2)) := rfl

theorem memberRun_keep {inner : Reader Json} {ms : List (String × Json)}
    (each : ∀ m ∈ ms, ReadsBack inner (fun j => j) m.2) (kept : List (String × Json)) :
    MemberRun (keepMember inner) ms kept (ms.reverse ++ kept) := by
  induction ms generalizing kept with
  | nil => exact .nil kept
  | cons m ms ih =>
    have more := ih (fun x hx => each x (List.mem_cons_of_mem _ hx)) (m :: kept)
    rw [List.reverse_cons, List.append_assoc]
    refine .cons ?_ more
    intro rest stops
    rw [List.cons_append, keepMember_colon, each m List.mem_cons_self rest stops]
    rfl

/-- Without regard to nesting, a value that begins like a numeral is read as one. -/
theorem readValue_number (inner : Option (Reader Json)) {b : UInt8} {bytes : Bytes}
    (leads : Leads b) :
    readValue inner (b :: bytes) =
      (Scan.number (b :: bytes) >>= fun r => pure (number r.1, r.2)) := by
  obtain ⟨notNull, notTrue, notFalse⟩ := leads.notWord
  simp only [readValue, skipBlanks_cons leads.visible.1, if_neg notNull, if_neg notTrue,
    if_neg notFalse, if_pos (show b = minus ∨ isDigit b = true from leads)]

theorem readValue_quote (inner : Option (Reader Json)) (bytes : Bytes) :
    readValue inner (quote :: bytes) = (textBody bytes >>= fun r => pure (text r.1, r.2)) := rfl

theorem read_eq_readValue (depth : Nat) : ∃ inner, read depth = readValue inner := by
  cases depth with
  | zero => exact ⟨none, rfl⟩
  | succ depth => exact ⟨some (read depth), rfl⟩

theorem read_openList (depth : Nat) (bytes : Bytes) :
    read (depth + 1) (openList :: bytes) =
      (listBody (read depth) bytes >>= fun r => pure (list r.1, r.2)) := rfl

theorem read_openObject (depth : Nat) (bytes : Bytes) :
    read (depth + 1) (openObject :: bytes) =
      (objectBody (keepMember (read depth)) [] bytes >>= fun r =>
        pure (object r.1.reverse, r.2)) := rfl

mutual

/-- Every document is read back from its text. The induction is on the document; what may be nested
inside it goes down with its height. -/
theorem read_write (j : Json) {depth : Nat} (whole : j.Whole) (fits : j.height ≤ depth) :
    ReadsBack (read depth) (fun j => j) j := by
  intro rest stops
  match j, whole, fits with
  | .null, _, _ | .flag true, _, _ | .flag false, _, _ => cases depth <;> rfl
  | .number n, whole, _ =>
    obtain ⟨inner, same⟩ := read_eq_readValue depth
    obtain ⟨b, bytes, written, leads⟩ := leads_write whole
    have value := number_write whole stops
    rw [written, List.cons_append] at value
    rw [same, Json.write, written, List.cons_append, readValue_number inner leads, value]
    rfl
  | .text s, _, _ =>
    obtain ⟨inner, same⟩ := read_eq_readValue depth
    have body := textBody_escaped s rest
    rw [same, Json.write, writeText, List.cons_append, List.cons_append, List.append_assoc,
      readValue_quote]
    exact congrArg (· >>= _) body
  | .list xs, whole, fits =>
    cases depth with
    | zero => contradiction
    | succ depth =>
      have parts := read_writeItems xs whole (Nat.le_of_succ_le_succ fits)
      obtain ⟨bytes, written, body⟩ := listBody_write (fun x hx => (parts x hx).1)
        (fun x hx => (parts x hx).2) rest
      rw [List.map_id'] at written
      rw [written, List.cons_append, read_openList, body]
      rfl
  | .object ms, whole, fits =>
    cases depth with
    | zero => contradiction
    | succ depth =>
      have parts := read_writeMembers ms whole (Nat.le_of_succ_le_succ fits)
      obtain ⟨bytes, written, body⟩ := objectBody_write (memberRun_keep parts []) rest
      rw [written, List.cons_append, read_openObject, body, List.append_nil]
      change Except.ok (object ms.reverse.reverse, rest) = _
      rw [List.reverse_reverse]

theorem read_writeItems (xs : List Json) {depth : Nat} (whole : WholeItems xs)
    (fits : heightItems xs ≤ depth) :
    ∀ x ∈ xs, x.Whole ∧ ReadsBack (read depth) (fun j => j) x := by
  cases xs with
  | nil => simp
  | cons x xs =>
    have first := read_write x whole.1 (Nat.le_trans (Nat.le_max_left _ _) fits)
    have more := read_writeItems xs whole.2 (Nat.le_trans (Nat.le_max_right _ _) fits)
    exact List.forall_mem_cons.mpr ⟨⟨whole.1, first⟩, more⟩

theorem read_writeMembers (ms : List (String × Json)) {depth : Nat} (whole : WholeMembers ms)
    (fits : heightMembers ms ≤ depth) :
    ∀ m ∈ ms, ReadsBack (read depth) (fun j => j) m.2 := by
  cases ms with
  | nil => simp
  | cons m ms =>
    have first := read_write m.2 whole.1 (Nat.le_trans (Nat.le_max_left _ _) fits)
    have more := read_writeMembers ms whole.2 (Nat.le_trans (Nat.le_max_right _ _) fits)
    exact List.forall_mem_cons.mpr ⟨first, more⟩

end

end Json

end AdmissionGuest
