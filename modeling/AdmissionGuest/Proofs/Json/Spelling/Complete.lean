import AdmissionGuest.Proofs.Json.Skip.Extent
import AdmissionGuest.Proofs.Json.Spelling.Parts
import AdmissionGuest.Proofs.Json.Spelling.Words
/-!
Every well-formed text that can be skipped is a spelled document. Skipping keeps the lists and
objects that are open on a stack; what such a stack still wants of the text is put into words, and
each step is followed backwards, from what the next state wants to what this one does.
-/

namespace AdmissionGuest

open Ascii Scan Utf8

namespace Spelling

open Skip

variable {bytes rest left : Bytes} {b : UInt8}

/-- The parts of a list or an object. -/
inductive Parts : Frame → Bool → Bytes → Prop where
  | items (first : Bool) (xs : List (Item Spelling)) : Parts .list first (itemBytes first xs)
  | members (first : Bool) (ms : List (Member Spelling)) :
    Parts .object first (memberBytes first ms)

/-- What a state of skipping wants of the bytes before it is done: the value that it stands at, and
the other parts of every frame that is open. -/
inductive Closes : State → Bytes → Bytes → Prop where
  | done (rest : Bytes) : Closes (.ended []) rest rest
  | value {frames : List Frame} {middle rest : Bytes} (bs : List Blank) (d : Spelling)
    (later : Closes (.ended frames) middle rest) :
    Closes (.value frames) (blanks bs ++ (d.bytes ++ middle)) rest
  | parts {frame : Frame} {frames : List Frame} {body middle rest : Bytes} (bs : List Blank)
    (parts : Parts frame false body) (later : Closes (.ended frames) middle rest) :
    Closes (.ended (frame :: frames)) (blanks bs ++ (body ++ frame.close :: middle)) rest

section Machine

variable {frame : Frame} {frames : List Frame} {state : State} {first : Bool}

theorem Parts.none (frame : Frame) (first : Bool) : Parts frame first [] := by
  cases frame with
  | list => exact .items first []
  | object => exact .members first []

/-- A frame with its parts is a document. -/
theorem Parts.document {body : Bytes} (parts : Parts frame true body) (inside : List Blank)
    (rest : Bytes) :
    ∃ d : Spelling, frame.opens :: (blanks inside ++ (body ++ frame.close :: rest)) =
      d.bytes ++ rest := by
  cases parts with
  | items _ xs =>
    refine ⟨.list inside xs, ?_⟩
    rw [bytes, List.cons_append, List.append_assoc, List.append_assoc]
    rfl
  | members _ ms =>
    refine ⟨.object inside ms, ?_⟩
    rw [bytes, List.cons_append, List.append_assoc, List.append_assoc]
    rfl

/-- The name of a member with its colon. -/
theorem exists_name (before : beforeValue .object bytes = .ok rest) (formed : WellFormed bytes) :
    ∃ bs name colonBlanks, bytes = blanks bs ++ (quote :: (markBytes name ++ (quote ::
      (blanks colonBlanks ++ colon :: rest)))) ∧ WellFormed rest := by
  cases visible : skipBlanks bytes with
  | nil =>
    simp only [beforeValue, visible] at before
    cases before
  | cons b tail =>
    obtain ⟨bs, rfl, shown⟩ := exists_visible visible formed
    simp only [beforeValue, visible] at before
    split at before
    next quoted =>
      subst quoted
      obtain ⟨left, body, separated⟩ := ok_of_bind before
      obtain ⟨name, rfl, later⟩ := exists_marks body (shown.tail (by decide))
      cases after : skipBlanks left with
      | nil =>
        rw [after] at separated
        cases separated
      | cons c value =>
        obtain ⟨colonBlanks, rfl, last⟩ := exists_visible after later
        rw [after] at separated
        dsimp only at separated
        split at separated
        next same =>
          subst same
          cases separated
          exact ⟨bs, name, colonBlanks, rfl, last.tail (by decide)⟩
        next => cases separated
    next => cases before

theorem wellFormed_beforeValue (before : beforeValue frame bytes = .ok left)
    (formed : WellFormed bytes) : WellFormed left := by
  cases frame with
  | list =>
    cases before
    exact formed
  | object =>
    obtain ⟨_, _, _, _, later⟩ := exists_name before formed
    exact later

/-- A value with what comes before it makes one part more. -/
theorem exists_parts (before : beforeValue frame bytes = .ok left) (formed : WellFormed bytes)
    (closes : Closes (.value (frame :: frames)) left rest) (first : Bool) :
    ∃ body middle, (if first then [] else [comma]) ++ bytes = body ++ frame.close :: middle ∧
      Parts frame first body ∧ Closes (.ended frames) middle rest := by
  cases closes with
  | value bs d later =>
  cases later with
  | parts after parts later =>
  cases parts with
  | items _ xs =>
    cases before
    refine ⟨itemBytes first (⟨bs, d, after⟩ :: xs), _, ?_, .items first _, later⟩
    rw [itemBytes_cons]
  | members _ ms =>
    obtain ⟨spaces, name, colonBlanks, rfl, _⟩ := exists_name before formed
    refine ⟨memberBytes first (⟨spaces, name, colonBlanks, bs, d, after⟩ :: ms), _, ?_,
      .members first _, later⟩
    rw [memberBytes_cons]

/-! Steps -/

/-- What the bytes at a value are if those at the next state are what that state wants. -/
structure Spells (frames : List Frame) (visible : Bytes) (state : State) (left : Bytes) : Prop where
  formed : WellFormed left
  document : ∀ rest, Closes state left rest →
    ∃ (d : Spelling) (middle : Bytes), visible = d.bytes ++ middle ∧
      Closes (.ended frames) middle rest

theorem spells_scalar {skipped : Except Fault Bytes} {visible : Bytes}
    (spelled : ∀ left, skipped = .ok left →
      WellFormed left ∧ ∃ d : Spelling, visible = d.bytes ++ left)
    (stepped : skipped.map (fun rest => (State.ended frames, rest)) = .ok (state, left)) :
    Spells frames visible state left := by
  cases skipped with
  | error fault => cases stepped
  | ok _ =>
    cases stepped
    obtain ⟨formed, d, rfl⟩ := spelled _ rfl
    exact ⟨formed, fun rest closes => ⟨d, _, rfl, closes⟩⟩

theorem spells_enter (entered : enter frame frames bytes = .ok (state, left))
    (formed : WellFormed bytes) : Spells frames (frame.opens :: bytes) state left := by
  cases visible : skipBlanks bytes with
  | nil =>
    simp only [enter, visible] at entered
    cases entered
  | cons b tail =>
    obtain ⟨inside, rfl, shown⟩ := exists_visible visible formed
    simp only [enter, visible] at entered
    split at entered
    next closed =>
      subst closed
      cases entered
      have ascii : frame.close < 0x80 := by cases frame <;> decide
      refine ⟨shown.tail ascii, fun rest closes => ?_⟩
      obtain ⟨d, same⟩ := (Parts.none frame true).document inside left
      exact ⟨d, left, same, closes⟩
    next =>
      obtain ⟨value, before, entered⟩ := ok_of_bind entered
      cases entered
      refine ⟨wellFormed_beforeValue before shown, fun rest closes => ?_⟩
      obtain ⟨body, middle, same, parts, later⟩ := exists_parts before shown closes true
      obtain ⟨d, document⟩ := parts.document inside middle
      rw [if_pos rfl, List.nil_append] at same
      exact ⟨d, middle, same ▸ document, later⟩

theorem eq_of_letters {word : Bytes} (spelled : letters word bytes = .ok ((), rest)) :
    bytes = word ++ rest := by
  induction word generalizing bytes with
  | nil =>
    cases spelled
    rfl
  | cons letter word ih =>
    cases bytes with
    | nil => cases spelled
    | cons b bytes =>
      rw [letters] at spelled
      split at spelled
      next same => rw [same, ih spelled, List.cons_append]
      next => cases spelled

theorem spells_word {word tail : Bytes} (d : Spelling) (written : d.bytes = b :: word)
    (ascii : word.all (· < 0x80) = true) (formed : WellFormed tail)
    (stepped : ((letters word tail).map Prod.snd).map (fun rest => (State.ended frames, rest)) =
      .ok (state, left)) : Spells frames (b :: tail) state left := by
  refine spells_scalar (fun left skipped => ?_) stepped
  cases read : letters word tail with
  | error fault =>
    rw [read] at skipped
    cases skipped
  | ok r =>
    rw [read] at skipped
    cases skipped
    obtain rfl := eq_of_letters read
    have ascii : ∀ b ∈ word, b < 0x80 := fun b here =>
      of_decide_eq_true (List.all_eq_true.mp ascii b here)
    exact ⟨formed.drop ascii, d, by rw [written, List.cons_append]⟩

theorem spells_value (stepped : Skip.value frames bytes = .ok (state, left))
    (formed : WellFormed bytes) : Spells frames (skipBlanks bytes) state left := by
  cases visible : skipBlanks bytes with
  | nil =>
    simp only [Skip.value, visible] at stepped
    cases stepped
  | cons b tail =>
    obtain ⟨_, _, shown⟩ := exists_visible visible formed
    have after (ascii : b < 0x80) : WellFormed tail := shown.tail ascii
    simp only [Skip.value, visible] at stepped
    split at stepped
    next null =>
      subst null
      exact spells_word .null rfl rfl (after (by decide)) stepped
    next =>
    split at stepped
    next yes =>
      subst yes
      exact spells_word (.flag true) rfl rfl (after (by decide)) stepped
    next =>
    split at stepped
    next no =>
      subst no
      exact spells_word (.flag false) rfl rfl (after (by decide)) stepped
    next =>
    split at stepped
    next negative =>
      subst negative
      refine spells_scalar (fun left skipped => ?_) stepped
      obtain ⟨n, same, rfl⟩ := exists_unsigned skipped true
      refine ⟨(after (by decide)).drop n.ascii_unsigned, .number n, ?_⟩
      rw [Spelling.bytes, Numeral.bytes, same]
      rfl
    next =>
    split at stepped
    next known =>
      refine spells_scalar (fun left skipped => ?_) stepped
      obtain ⟨n, same, written⟩ := exists_unsigned skipped false
      rw [written] at shown ⊢
      refine ⟨shown.drop n.ascii_unsigned, .number n, ?_⟩
      rw [Spelling.bytes, Numeral.bytes, same]
      rfl
    next =>
    split at stepped
    next quoted =>
      subst quoted
      refine spells_scalar (fun left skipped => ?_) stepped
      obtain ⟨ms, rfl, later⟩ := exists_marks skipped (after (by decide))
      refine ⟨later, .text ms, ?_⟩
      rw [Spelling.bytes, List.cons_append, List.append_assoc]
      rfl
    next =>
    split at stepped
    next opened =>
      subst opened
      exact spells_enter stepped (after (by decide))
    next =>
    split at stepped
    next opened =>
      subst opened
      exact spells_enter stepped (after (by decide))
    next => cases stepped

/-- After a value there are other parts or the end of the frame. -/
theorem closes_afterValue (stepped : afterValue frame frames bytes = .ok (state, left))
    (formed : WellFormed bytes) :
    WellFormed left ∧ ∀ rest, Closes state left rest →
      Closes (.ended (frame :: frames)) bytes rest := by
  cases visible : skipBlanks bytes with
  | nil =>
    simp only [afterValue, visible] at stepped
    cases stepped
  | cons b tail =>
    obtain ⟨bs, rfl, shown⟩ := exists_visible visible formed
    simp only [afterValue, visible] at stepped
    split at stepped
    next separated =>
      subst separated
      obtain ⟨value, before, stepped⟩ := ok_of_bind stepped
      cases stepped
      have others := shown.tail (by decide)
      refine ⟨wellFormed_beforeValue before others, fun rest closes => ?_⟩
      obtain ⟨body, middle, same, parts, later⟩ := exists_parts before others closes false
      change comma :: tail = _ at same
      rw [same]
      exact .parts bs parts later
    next =>
      split at stepped
      next closed =>
        subst closed
        cases stepped
        have ascii : frame.close < 0x80 := by cases frame <;> decide
        exact ⟨shown.tail ascii, fun rest closes => .parts bs (.none frame false) closes⟩
      next => cases stepped

/-- A run that comes to its end has found what its state wants. -/
theorem closes_of_run {bound : Bytes} (ran : run bound state bytes = .ok rest)
    (formed : WellFormed bytes) : Closes state bytes rest := by
  induction bound generalizing state bytes with
  | nil =>
    cases state with
    | value frames => cases ran
    | ended frames =>
      cases frames with
      | nil =>
        cases ran
        exact .done rest
      | cons frame frames => cases ran
  | cons _ bound ih =>
    cases state with
    | value frames =>
      rw [run] at ran
      cases stepped : Skip.value frames bytes with
      | error fault =>
        rw [stepped] at ran
        cases ran
      | ok next =>
        rw [stepped] at ran
        have spells := spells_value stepped formed
        obtain ⟨bs, same⟩ := exists_blanks (Eq.refl (skipBlanks bytes))
        obtain ⟨d, middle, document, later⟩ := spells.document rest (ih ran spells.formed)
        rw [same, document]
        exact .value bs d later
    | ended frames =>
      cases frames with
      | nil =>
        rw [run_ended] at ran
        cases ran
        exact .done rest
      | cons frame frames =>
        rw [run] at ran
        cases stepped : afterValue frame frames bytes with
        | error fault =>
          rw [stepped] at ran
          cases ran
        | ok next =>
          rw [stepped] at ran
          obtain ⟨formed, closes⟩ := closes_afterValue stepped formed
          exact closes rest (ih ran formed)

end Machine

/-- Well-formed text that can be skipped is a spelled document. -/
theorem exists_spelling (skips : Skips [] bytes rest) (formed : WellFormed bytes) :
    ∃ (bs : List Blank) (d : Spelling), bytes = blanks bs ++ (d.bytes ++ rest) := by
  cases closes_of_run skips.run formed with
  | value bs d later =>
    cases later
    exact ⟨bs, d, rfl⟩

end Spelling

end AdmissionGuest
