import AdmissionGuest.Proofs.Json.RoundTrip
/-!
How the text of a document begins: the first visible byte decides which kind of value is read, and
how its rest is read.
-/

namespace AdmissionGuest

open Ascii Scan

theorem ok_of_bind {ε α β : Type} {x : Except ε α} {f : α → Except ε β} {b : β}
    (done : x >>= f = .ok b) : ∃ a, x = .ok a ∧ f a = .ok b := by
  cases x with
  | error e => exact nomatch done
  | ok a => exact ⟨a, rfl, done⟩

namespace Scan

theorem skipBlanks_visible {b : UInt8} {bytes rest : Bytes}
    (visible : skipBlanks bytes = b :: rest) :
    isBlank b = false := by
  induction bytes with
  | nil => exact nomatch visible
  | cons c bytes ih =>
    by_cases blank : isBlank c = true
    · exact ih (by rwa [skipBlanks, List.dropWhile_cons_of_pos blank] at visible)
    · rw [skipBlanks, List.dropWhile_cons_of_neg blank] at visible
      obtain ⟨rfl, _⟩ := List.cons.inj visible
      exact Bool.not_eq_true _ ▸ blank

@[simp]
theorem skipBlanks_skipBlanks (bytes : Bytes) :
    skipBlanks (skipBlanks bytes) = skipBlanks bytes := by
  cases visible : skipBlanks bytes with
  | nil => rfl
  | cons b rest => exact skipBlanks_cons (skipBlanks_visible visible)

theorem length_skipBlanks_le (bytes : Bytes) : (skipBlanks bytes).length ≤ bytes.length :=
  (List.dropWhile_sublist _).length_le

/-- The ways in which a list goes on. -/
inductive NextItem : Bool → Bytes → Bool → Bytes → Prop where
  | close {first : Bool} {bytes rest : Bytes} (visible : skipBlanks bytes = closeList :: rest) :
    NextItem first bytes false (closeList :: rest)
  | first {bytes rest : Bytes} {b : UInt8} (visible : skipBlanks bytes = b :: rest)
    (inside : b ≠ closeList) : NextItem true bytes true (b :: rest)
  | comma {bytes after rest : Bytes} {b : UInt8} (visible : skipBlanks bytes = comma :: after)
    (item : skipBlanks after = b :: rest) (inside : b ≠ closeList) :
    NextItem false bytes true (b :: rest)

theorem nextItem_inv {first more : Bool} {bytes rest : Bytes}
    (done : nextItem first bytes = .ok (more, rest)) : NextItem first bytes more rest := by
  simp only [nextItem] at done
  cases visible : skipBlanks bytes with
  | nil =>
    rw [visible] at done
    cases done
  | cons b tail =>
    rw [visible] at done
    dsimp only at done
    by_cases closed : b = closeList
    · subst closed
      cases done
      exact .close visible
    rw [if_neg closed] at done
    cases first with
    | true =>
      cases done
      exact .first visible closed
    | false =>
      simp only [Bool.false_eq_true, if_false] at done
      split at done
      next separated =>
        subst separated
        cases item : skipBlanks tail with
        | nil =>
          rw [item] at done
          cases done
        | cons c after =>
          rw [item] at done
          dsimp only at done
          split at done
          next => cases done
          next inside =>
            cases done
            exact .comma visible item inside
      next => cases done

theorem length_of_nextItem {first : Bool} {bytes next : Bytes}
    (moved : NextItem first bytes true next) : next.length ≤ bytes.length := by
  have shorter := length_skipBlanks_le bytes
  cases moved with
  | first visible _ => rwa [visible] at shorter
  | @comma _ after _ _ visible item _ =>
    have later := length_skipBlanks_le after
    rw [visible, List.length_cons] at shorter
    rw [item] at later
    omega

/-- The ways in which an object goes on. -/
inductive NextName : Bool → Bytes → Option String → Bytes → Prop where
  | close {first : Bool} {bytes rest : Bytes} (visible : skipBlanks bytes = closeObject :: rest) :
    NextName first bytes none (closeObject :: rest)
  | first {bytes after rest : Bytes} {name : String} (visible : skipBlanks bytes = quote :: after)
    (body : textBody after = .ok (name, rest)) : NextName true bytes (some name) rest
  | comma {bytes after more rest : Bytes} {name : String}
    (visible : skipBlanks bytes = comma :: after) (item : skipBlanks after = quote :: more)
    (body : textBody more = .ok (name, rest)) : NextName false bytes (some name) rest

theorem nextName_inv {first : Bool} {bytes rest : Bytes} {name : Option String}
    (done : nextName first bytes = .ok (name, rest)) : NextName first bytes name rest := by
  simp only [nextName] at done
  cases visible : skipBlanks bytes with
  | nil =>
    rw [visible] at done
    cases done
  | cons b tail =>
    rw [visible] at done
    dsimp only at done
    by_cases closed : b = closeObject
    · subst closed
      cases done
      exact .close visible
    rw [if_neg closed] at done
    cases first with
    | true =>
      rw [if_pos rfl] at done
      split at done
      next quoted =>
        subst quoted
        obtain ⟨⟨name, _⟩, body, done⟩ := ok_of_bind done
        cases done
        exact .first visible body
      next => cases done
    | false =>
      rw [if_neg Bool.false_ne_true] at done
      split at done
      next separated =>
        subst separated
        cases item : skipBlanks tail with
        | nil =>
          rw [item] at done
          cases done
        | cons c after =>
          rw [item] at done
          dsimp only at done
          split at done
          next quoted =>
            subst quoted
            obtain ⟨⟨name, _⟩, body, done⟩ := ok_of_bind done
            cases done
            exact .comma visible item body
          next => split at done <;> cases done
      next => cases done

theorem memberColon_inv {bytes rest : Bytes} (done : memberColon bytes = .ok ((), rest)) :
    skipBlanks bytes = colon :: rest := by
  simp only [memberColon] at done
  cases visible : skipBlanks bytes with
  | nil =>
    rw [visible] at done
    exact nomatch done
  | cons b tail =>
    rw [visible] at done
    dsimp only at done
    split at done
    next separated =>
      cases done
      rw [separated]
    next => exact nomatch done

/-! Members that are kept -/

variable {σ : Type} {bytes rest : Bytes}

/-- Where every member is a document, so is the object. -/
theorem members_kept {member : String → σ → Reader σ} {reader : Reader Json}
    (each : ∀ name s s' bytes rest, member name s bytes = .ok (s', rest) →
      ∃ value x, memberColon bytes = .ok ((), value) ∧ reader value = .ok (x, rest))
    {bound : Bytes} {first : Bool} {s s' : σ}
    (read : members member bound first s bytes = .ok (s', rest)) (before : List (String × Json)) :
    ∃ ms, members (Json.keepMember reader) bound first before bytes = .ok (ms, rest) := by
  induction bound generalizing first bytes s before with
  | nil => exact nomatch read
  | cons _ bound ih =>
    obtain ⟨⟨name, next⟩, moved, read⟩ := ok_of_bind read
    simp only [members, moved, bind, Except.bind]
    cases name with
    | none =>
      cases read
      exact ⟨before, rfl⟩
    | some name =>
      obtain ⟨⟨t, left⟩, here, read⟩ := ok_of_bind read
      obtain ⟨value, x, colon, document⟩ := each _ _ _ _ _ here
      have kept : Json.keepMember reader name before next = .ok ((name, x) :: before, left) := by
        change memberColon next >>= _ = _
        rw [colon]
        change reader value >>= _ = _
        rw [document]
        rfl
      simp only [kept]
      exact ih read _

theorem objectBody_kept {member : String → σ → Reader σ} {reader : Reader Json}
    (each : ∀ name s s' bytes rest, member name s bytes = .ok (s', rest) →
      ∃ value x, memberColon bytes = .ok ((), value) ∧ reader value = .ok (x, rest))
    {s s' : σ} (read : objectBody member s bytes = .ok (s', rest)) :
    ∃ ms, objectBody (Json.keepMember reader) [] bytes = .ok (ms, rest) := by
  obtain ⟨⟨t, left⟩, read, closing⟩ := ok_of_bind read
  obtain ⟨⟨⟨⟩, _⟩, ended, closing⟩ := ok_of_bind closing
  cases closing
  obtain ⟨ms, kept⟩ := members_kept each read []
  refine ⟨ms, ?_⟩
  simp only [objectBody, kept, ended, bind, Except.bind]
  rfl

end Scan

namespace Json

/-- All ways in which a document is read from its first visible byte on. -/
inductive Begins (depth : Nat) : Bytes → Json → Bytes → Prop where
  | null {tail rest : Bytes} (word : letters [letterU, 0x6C, 0x6C] tail = .ok ((), rest)) :
    Begins depth (letterN :: tail) .null rest
  | yes {tail rest : Bytes} (word : letters [letterR, letterU, 0x65] tail = .ok ((), rest)) :
    Begins depth (letterT :: tail) (.flag true) rest
  | no {tail rest : Bytes} (word : letters [0x61, 0x6C, 0x73, 0x65] tail = .ok ((), rest)) :
    Begins depth (letterF :: tail) (.flag false) rest
  | number {b : UInt8} {tail rest : Bytes} {n : Number} (leads : Leads b)
    (numeral : Scan.number (b :: tail) = .ok (n, rest)) :
    Begins depth (b :: tail) (.number n) rest
  | text {tail rest : Bytes} {s : String} (body : textBody tail = .ok (s, rest)) :
    Begins depth (quote :: tail) (.text s) rest
  | list {inner : Nat} {tail rest : Bytes} {xs : List Json} (deeper : depth = inner + 1)
    (items : listBody (read inner) tail = .ok (xs, rest)) :
    Begins depth (openList :: tail) (.list xs) rest
  | object {inner : Nat} {tail rest : Bytes} {ms : List (String × Json)}
      (deeper : depth = inner + 1)
    (members : objectBody (keepMember (read inner)) [] tail = .ok (ms, rest)) :
    Begins depth (openObject :: tail) (.object ms.reverse) rest

theorem read_skipBlanks (depth : Nat) (bytes : Bytes) :
    read depth (skipBlanks bytes) = read depth bytes := by
  cases depth <;> simp only [read, readValue, skipBlanks_skipBlanks]

theorem begins_of_read {depth : Nat} {bytes rest : Bytes} {j : Json}
    (done : read depth bytes = .ok (j, rest)) : Begins depth (skipBlanks bytes) j rest := by
  have open_parts : ∃ inner, read depth bytes = readValue inner bytes ∧
      ∀ item, inner = some item → ∃ d, depth = d + 1 ∧ item = read d := by
    cases depth with
    | zero =>
      refine ⟨none, rfl, ?_⟩
      rintro _ ⟨⟩
    | succ d => exact ⟨some (read d), rfl, fun _ same => ⟨d, rfl, (Option.some.inj same).symm⟩⟩
  obtain ⟨inner, same, deeper⟩ := open_parts
  rw [same] at done
  simp only [readValue] at done
  cases visible : skipBlanks bytes with
  | nil =>
    rw [visible] at done
    cases done
  | cons b tail =>
    rw [visible] at done
    dsimp only at done
    split at done
    next first =>
      subst first
      obtain ⟨⟨⟨⟩, _⟩, word, done⟩ := ok_of_bind done
      cases done
      exact .null word
    split at done
    next first =>
      subst first
      obtain ⟨⟨⟨⟩, _⟩, word, done⟩ := ok_of_bind done
      cases done
      exact .yes word
    split at done
    next first =>
      subst first
      obtain ⟨⟨⟨⟩, _⟩, word, done⟩ := ok_of_bind done
      cases done
      exact .no word
    split at done
    next leads =>
      obtain ⟨⟨n, _⟩, numeral, done⟩ := ok_of_bind done
      cases done
      exact .number leads numeral
    split at done
    next first =>
      subst first
      obtain ⟨⟨s, _⟩, body, done⟩ := ok_of_bind done
      cases done
      exact .text body
    split at done
    next first =>
      subst first
      cases inner with
      | none => cases done
      | some item =>
        obtain ⟨d, rfl, rfl⟩ := deeper item rfl
        obtain ⟨⟨xs, _⟩, items, done⟩ := ok_of_bind done
        cases done
        exact .list rfl items
    split at done
    next first =>
      subst first
      cases inner with
      | none => cases done
      | some item =>
        obtain ⟨d, rfl, rfl⟩ := deeper item rfl
        obtain ⟨⟨ms, _⟩, members, done⟩ := ok_of_bind done
        cases done
        exact .object rfl members
    next => cases done

variable {depth : Nat} {bytes rest : Bytes}

theorem object_of_read {ms : List (String × Json)}
    (read : read depth bytes = .ok (.object ms, rest)) :
    ∃ inner tail, depth = inner + 1 ∧ skipBlanks bytes = openObject :: tail ∧
      objectBody (keepMember (Json.read inner)) [] tail = .ok (ms.reverse, rest) := by
  have begins := begins_of_read read
  generalize skipBlanks bytes = visible, document : Json.object ms = j at begins
  cases begins with
  | object deeper members =>
    cases document
    rw [List.reverse_reverse]
    exact ⟨_, _, deeper, rfl, members⟩
  | null | yes | no | number | text | list => exact nomatch document

theorem list_of_read {xs : List Json} (read : read depth bytes = .ok (.list xs, rest)) :
    ∃ inner tail, depth = inner + 1 ∧ skipBlanks bytes = openList :: tail ∧
      listBody (Json.read inner) tail = .ok (xs, rest) := by
  have begins := begins_of_read read
  generalize skipBlanks bytes = visible, document : Json.list xs = j at begins
  cases begins with
  | list deeper items =>
    cases document
    exact ⟨_, _, deeper, rfl, items⟩
  | null | yes | no | number | text | object => exact nomatch document

end Json

end AdmissionGuest
