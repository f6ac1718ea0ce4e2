import AdmissionGuest.Proofs.Shape.Reading.Record
/-!
What a successful read of a shape has met: which visible byte the value begins with, and how its
parts were read.
-/

namespace AdmissionGuest

open Ascii Scan

variable {depth : Nat} {bytes rest : Bytes}

namespace Scan

theorem not_faultOver {α : Type} {close : UInt8} {cause : Cause} {r : α × Bytes} :
    (faultOver close cause bytes : Except Fault (α × Bytes)) ≠ .ok r := by
  unfold faultOver
  split
  next => rintro ⟨⟩
  next => split <;> rintro ⟨⟩

theorem endList_inv (ended : endList bytes = .ok ((), rest)) :
    skipBlanks bytes = closeList :: rest := by
  simp only [endList] at ended
  cases visible : skipBlanks bytes with
  | nil =>
    rw [visible] at ended
    cases ended
  | cons b tail =>
    rw [visible] at ended
    dsimp only at ended
    split at ended
    next closed =>
      cases ended
      rw [closed]
    next =>
      split at ended
      next =>
        split at ended
        next => cases ended
        next => split at ended <;> cases ended
      next => cases ended

end Scan

namespace Shape

theorem not_mismatch {α : Type} {expected : String} {a : α} :
    mismatch expected bytes ≠ .ok (a, rest) := by
  intro read
  obtain ⟨fault, fails⟩ := mismatch_fails (α := α) expected bytes
  rw [fails] at read
  exact nomatch read

theorem inner_of_entering {α : Type} {inner : Nat → Reader α} {a : α}
    (read : entering depth inner bytes = .ok (a, rest)) :
    ∃ d, depth = d + 1 ∧ inner d bytes.tail = .ok (a, rest) := by
  cases depth with
  | zero => exact nomatch read
  | succ d => exact ⟨d, rfl, read⟩

theorem text_of_read {expected s : String} (read : readText expected bytes = .ok (s, rest)) :
    ∃ tail, skipBlanks bytes = quote :: tail ∧ textBody tail = .ok (s, rest) := by
  unfold readText at read
  split at read
  next => exact absurd read not_mismatch
  next b tail visible =>
    split at read
    next quoted =>
      subst quoted
      exact ⟨tail, visible, read⟩
    next => exact absurd read not_mismatch

theorem flag_of_read {expected : String} {v : Bool}
    (read : readFlag expected bytes = .ok (v, rest)) :
    ∃ tail, skipBlanks bytes = (if v then letterT else letterF) :: tail ∧
      letters (if v then [letterR, letterU, 0x65] else [0x61, 0x6C, 0x73, 0x65]) tail =
        .ok ((), rest) := by
  unfold readFlag at read
  split at read
  next => exact absurd read not_mismatch
  next b tail visible =>
    split at read
    next yes =>
      subst yes
      obtain ⟨⟨⟨⟩, _⟩, spelled, read⟩ := ok_of_bind read
      cases read
      exact ⟨tail, visible, spelled⟩
    split at read
    next no =>
      subst no
      obtain ⟨⟨⟨⟩, _⟩, spelled, read⟩ := ok_of_bind read
      cases read
      exact ⟨tail, visible, spelled⟩
    next => exact absurd read not_mismatch

theorem int_of_read {width : Width} {v : width.Val}
    (read : readInt width bytes = .ok (v, rest)) :
    ∃ b tail n, skipBlanks bytes = b :: tail ∧ Leads b ∧
      Scan.number (b :: tail) = .ok (n, rest) ∧ intOf width n = .ok v := by
  unfold readInt at read
  split at read
  next => exact absurd read not_mismatch
  next b tail visible =>
    split at read
    next leads =>
      obtain ⟨⟨n, left⟩, numeral, read⟩ := ok_of_bind read
      dsimp only at read
      split at read
      next fits =>
        cases read
        exact ⟨b, tail, n, visible, leads, numeral, fits⟩
      next => cases read
    next => exact absurd read not_mismatch

theorem null_of_readUnit (read : readUnit bytes = .ok ((), rest)) :
    ∃ tail, skipBlanks bytes = letterN :: tail ∧
      letters [letterU, 0x6C, 0x6C] tail = .ok ((), rest) := by
  unfold readUnit at read
  split at read
  next => exact absurd read not_mismatch
  next b tail visible =>
    split at read
    next null =>
      subst null
      exact ⟨tail, visible, read⟩
    next => exact absurd read not_mismatch

theorem closed_of_endChoice {α : Type} {a a' : α} (read : endChoice a bytes = .ok (a', rest)) :
    skipBlanks bytes = closeObject :: rest := by
  unfold endChoice at read
  split at read
  next => cases read
  next b tail visible =>
    split at read
    next closed =>
      cases read
      rw [visible, closed]
    next => cases read

/-- The two ways in which a choice is written: as its name, or as an object in which null stands
beside the name. -/
inductive ChoiceRead (bytes rest : Bytes) : Prop where
  | name {tail : Bytes} {name : String} (visible : skipBlanks bytes = quote :: tail)
    (body : textBody tail = .ok (name, rest))
  | object {tail next value after : Bytes} {name : String}
    (visible : skipBlanks bytes = openObject :: tail) (named : NextName true tail (some name) next)
    (separated : memberColon next = .ok ((), value)) (null : readUnit value = .ok ((), after))
    (closed : skipBlanks after = closeObject :: rest)

section Choice

variable {first : String} {others : List String} {i : Fin (others.length + 1)}

theorem name_of_read (read : readChoiceName first others bytes = .ok (i, rest)) :
    ∃ name, textBody bytes = .ok (name, rest) := by
  obtain ⟨⟨name, left⟩, body, read⟩ := ok_of_bind read
  dsimp only at read
  split at read
  next =>
    cases read
    exact ⟨name, body⟩
  next => exact nomatch read

theorem choice_of_read (read : readChoice first others depth bytes = .ok (i, rest)) :
    ChoiceRead bytes rest := by
  unfold readChoice at read
  split at read
  next => cases read
  next b tail visible =>
    split at read
    next quoted =>
      subst quoted
      obtain ⟨name, body⟩ := name_of_read read
      exact .name visible body
    split at read
    next opened =>
      subst opened
      obtain ⟨d, _, read⟩ := inner_of_entering read
      change readChoiceObject first others tail = _ at read
      cases start : skipBlanks tail with
      | nil =>
        simp only [readChoiceObject, start] at read
        cases read
      | cons c after =>
        by_cases quoted : c = quote
        · subst quoted
          rw [readChoiceObject_quoted start] at read
          obtain ⟨⟨i, next⟩, named, read⟩ := ok_of_bind read
          obtain ⟨⟨⟨⟩, value⟩, separated, read⟩ := ok_of_bind read
          obtain ⟨⟨⟨⟩, after⟩, null, read⟩ := ok_of_bind read
          obtain ⟨name, body⟩ := name_of_read named
          exact .object visible (.first start body) separated null (closed_of_endChoice read)
        · simp only [readChoiceObject, start, if_neg quoted] at read
          split at read <;> cases read
    next => cases read

end Choice

/-- An optional value is null, or begins otherwise. -/
theorem optional_of_read {α : Type} {item : Reader α} {v : Option α}
    (read : readOptional item bytes = .ok (v, rest)) :
    (v = none ∧ ∃ tail, skipBlanks bytes = letterN :: tail ∧
      letters [letterU, 0x6C, 0x6C] tail = .ok ((), rest)) ∨
    ∃ x, v = some x ∧ item (skipBlanks bytes) = .ok (x, rest) ∧
      ∀ tail, skipBlanks bytes ≠ letterN :: tail := by
  unfold readOptional at read
  split at read
  next visible =>
    obtain ⟨⟨x, _⟩, here, read⟩ := ok_of_bind read
    cases read
    rw [visible]
    refine .inr ⟨x, rfl, here, ?_⟩
    rintro _ ⟨⟩
  next b tail visible =>
    rw [visible]
    split at read
    next null =>
      subst null
      obtain ⟨⟨⟨⟩, _⟩, spelled, read⟩ := ok_of_bind read
      cases read
      exact .inl ⟨rfl, tail, rfl, spelled⟩
    next notNull =>
      obtain ⟨⟨x, _⟩, here, read⟩ := ok_of_bind read
      cases read
      exact .inr ⟨x, rfl, here, fun _ same => notNull (List.cons.inj same).1⟩

theorem list_of_read {item : Shape} {v : List item.Val}
    (read : (Shape.list item).read depth bytes = .ok (v, rest)) :
    ∃ d tail, depth = d + 1 ∧ skipBlanks bytes = openList :: tail ∧
      listBody (item.read d) tail = .ok (v, rest) := by
  change readList (Shape.list item).expected item.read depth bytes = _ at read
  unfold readList at read
  split at read
  next => exact absurd read not_mismatch
  next b tail visible =>
    split at read
    next opened =>
      subst opened
      obtain ⟨d, deeper, body⟩ := inner_of_entering read
      exact ⟨d, tail, deeper, visible, body⟩
    next => exact absurd read not_mismatch

theorem dict_of_read {item : Shape} {v : Dict String item.Val}
    (read : (Shape.dict item).read depth bytes = .ok (v, rest)) :
    ∃ d tail, depth = d + 1 ∧ skipBlanks bytes = openObject :: tail ∧
      objectBody (fun name (v : Dict String item.Val) => do
        memberColon
        return v.insert name (← item.read d)) Dict.empty tail = .ok (v, rest) := by
  change readDict (Shape.dict item).expected item.read depth bytes = _ at read
  unfold readDict at read
  split at read
  next => exact absurd read not_mismatch
  next b tail visible =>
    split at read
    next opened =>
      subst opened
      obtain ⟨d, deeper, body⟩ := inner_of_entering read
      exact ⟨d, tail, deeper, visible, body⟩
    next => exact absurd read not_mismatch

/-- The two ways in which a record is written: as an object, or as the list of its fields. -/
inductive RecordRead (noun : String) (fields : Fields) (depth : Nat) (bytes : Bytes)
    (v : fields.Val) (rest : Bytes) : Prop where
  | object {tail : Bytes} {slots : fields.Slots} (visible : skipBlanks bytes = openObject :: tail)
    (body : objectBody (fields.readMember depth) fields.noSlots tail = .ok (slots, rest))
    (finished : fields.finish slots = .ok v)
  | list {tail middle : Bytes} (visible : skipBlanks bytes = openList :: tail)
    (items : fields.readItems (fields.expected noun) depth 0 true tail = .ok (v, middle))
    (ended : endList middle = .ok ((), rest))

theorem record_of_read {noun : String} {fields : Fields} {v : fields.Val}
    (read : (Shape.record noun fields).read depth bytes = .ok (v, rest)) :
    ∃ d, depth = d + 1 ∧ RecordRead noun fields d bytes v rest := by
  change fields.readRecord noun fields.readMember?
    (fields.readItems (fields.expected noun)) depth bytes = _ at read
  unfold Fields.readRecord at read
  split at read
  next => cases read
  next b tail visible =>
    split at read
    next opened =>
      subst opened
      obtain ⟨d, deeper, body⟩ := inner_of_entering read
      obtain ⟨⟨slots, middle⟩, body, finished⟩ := ok_of_bind body
      refine ⟨d, deeper, ?_⟩
      dsimp only at finished
      cases done : fields.finish slots with
      | error name =>
        rw [done] at finished
        cases finished
      | ok vs =>
        rw [done] at finished
        cases finished
        exact .object visible body done
    split at read
    next opened =>
      subst opened
      obtain ⟨d, deeper, body⟩ := inner_of_entering read
      obtain ⟨⟨vs, middle⟩, items, closing⟩ := ok_of_bind body
      obtain ⟨⟨⟨⟩, _⟩, ended, closing⟩ := ok_of_bind closing
      cases closing
      exact ⟨d, deeper, .list visible items ended⟩
    next => exact absurd read not_mismatch

end Shape

end AdmissionGuest
