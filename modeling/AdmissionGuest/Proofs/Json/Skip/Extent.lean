import AdmissionGuest.Proofs.Json.Skip.Append
import AdmissionGuest.Proofs.Json.Skip.Nested
/-!
What is skipped does not depend on what comes after it, nor on the lists and objects around it. So
where a document breaks off, no reader can have found the end of a value.
-/

namespace AdmissionGuest.Skip

open Ascii Scan

variable {bytes rest more : Bytes}

/-! Steps -/

def State.above (outer : List Frame) : State → State
  | value frames => .value (frames ++ outer)
  | ended frames => .ended (frames ++ outer)

/-- A step at a value ends it or enters one frame more. -/
inductive Onward (frames : List Frame) : State → Prop where
  | ended : Onward frames (.ended frames)
  | deeper (frame : Frame) : Onward frames (.value (frame :: frames))

variable {frame : Frame} {frames outer : List Frame} {state : State}

theorem beforeValue_append (skipped : beforeValue frame bytes = .ok rest) (more : Bytes) :
    beforeValue frame (bytes ++ more) = .ok (rest ++ more) := by
  cases frame with
  | list =>
    cases skipped
    rfl
  | object =>
    cases visible : skipBlanks bytes with
    | nil =>
      simp only [beforeValue, visible] at skipped
      cases skipped
    | cons b tail =>
      simp only [beforeValue, visible] at skipped
      simp only [beforeValue, skipBlanks_append visible more]
      split at skipped
      next quoted =>
        rw [if_pos quoted]
        obtain ⟨left, body, skipped⟩ := ok_of_bind skipped
        rw [textBody_append body more]
        cases after : skipBlanks left with
        | nil =>
          rw [after] at skipped
          cases skipped
        | cons c value =>
          rw [after] at skipped
          dsimp only at skipped
          simp only [bind, Except.bind, skipBlanks_append after more]
          split at skipped
          next separated =>
            cases skipped
            rw [if_pos separated]
          next => cases skipped
      next => cases skipped

theorem enter_moves (entered : enter frame frames bytes = .ok (state, rest))
    (outer : List Frame) (more : Bytes) :
    Onward frames state ∧ rest.length ≤ bytes.length ∧
      enter frame (frames ++ outer) (bytes ++ more) = .ok (state.above outer, rest ++ more) := by
  have shorter := length_skipBlanks_le bytes
  cases visible : skipBlanks bytes with
  | nil =>
    simp only [enter, visible] at entered
    cases entered
  | cons b tail =>
    rw [visible, List.length_cons] at shorter
    simp only [enter, visible] at entered
    simp only [enter, skipBlanks_append visible more]
    split at entered
    next closed =>
      cases entered
      rw [if_pos closed]
      exact ⟨.ended, by omega, rfl⟩
    next inside =>
      obtain ⟨left, before, entered⟩ := ok_of_bind entered
      cases entered
      have within := length_beforeValue before
      rw [List.length_cons] at within
      have before := beforeValue_append before more
      rw [List.cons_append] at before
      rw [if_neg inside, before]
      exact ⟨.deeper frame, by omega, rfl⟩

theorem afterValue_moves (stepped : afterValue frame frames bytes = .ok (state, rest))
    (outer : List Frame) (more : Bytes) :
    state ≠ .value [] ∧ rest.length < bytes.length ∧
      afterValue frame (frames ++ outer) (bytes ++ more) =
        .ok (state.above outer, rest ++ more) := by
  have shorter := length_skipBlanks_le bytes
  cases visible : skipBlanks bytes with
  | nil =>
    simp only [afterValue, visible] at stepped
    cases stepped
  | cons b tail =>
    rw [visible, List.length_cons] at shorter
    simp only [afterValue, visible] at stepped
    simp only [afterValue, skipBlanks_append visible more]
    split at stepped
    next separated =>
      obtain ⟨left, before, stepped⟩ := ok_of_bind stepped
      cases stepped
      have within := length_beforeValue before
      rw [if_pos separated, beforeValue_append before more]
      refine ⟨?_, by omega, rfl⟩
      rintro ⟨⟩
    next notSeparated =>
      rw [if_neg notSeparated]
      split at stepped
      next closed =>
        cases stepped
        rw [if_pos closed]
        refine ⟨?_, by omega, rfl⟩
        rintro ⟨⟩
      next => cases stepped

/-- A value of which the end is certain: nothing else follows, it is followed by something already,
or it is no numeral. -/
def Firm (bytes rest more : Bytes) : Prop :=
  more = [] ∨ rest ≠ [] ∨ ∀ b tail, skipBlanks bytes = b :: tail → ¬ Leads b

/-- What skipping a value without parts does, by what it does on more bytes. -/
structure Taken (bytes more : Bytes) (skipped longer : Except Fault Bytes) : Prop where
  shorter : ∀ {rest}, skipped = .ok rest → rest.length < bytes.length
  append : ∀ {rest}, skipped = .ok rest → Firm bytes rest more → longer = .ok (rest ++ more)

theorem Taken.moves {skipped longer : Except Fault Bytes} (taken : Taken bytes more skipped longer)
    (stepped : skipped.map (fun rest => (State.ended frames, rest)) = .ok (state, rest)) :
    Onward frames state ∧ rest.length < bytes.length ∧ (Firm bytes rest more →
      longer.map (fun rest => (State.ended (frames ++ outer), rest)) =
        .ok (state.above outer, rest ++ more)) := by
  cases skipped with
  | error fault => exact nomatch stepped
  | ok left =>
    cases stepped
    refine ⟨.ended, taken.shorter rfl, fun firm => ?_⟩
    rw [taken.append rfl firm]
    rfl

section Taken

variable {b : UInt8} {tail : Bytes} (visible : skipBlanks bytes = b :: tail)

include visible

theorem length_visible : tail.length < bytes.length := by
  have shorter := length_skipBlanks_le bytes
  rwa [visible] at shorter

theorem taken_letters (word : List UInt8) (more : Bytes) :
    Taken bytes more ((letters word tail).map Prod.snd)
      ((letters word (tail ++ more)).map Prod.snd) := by
  have spelled {rest : Bytes} (skipped : (letters word tail).map Prod.snd = .ok rest) :
      letters word tail = .ok ((), rest) := by
    cases done : letters word tail with
    | error fault =>
      rw [done] at skipped
      exact nomatch skipped
    | ok read =>
      rw [done] at skipped
      cases skipped
      rfl
  constructor
  · intro rest skipped
    exact Nat.lt_of_le_of_lt (length_letters (spelled skipped)) (length_visible visible)
  · intro rest skipped _
    rw [letters_append (spelled skipped) more]
    rfl

theorem taken_textBody (more : Bytes) :
    Taken bytes more (textBody tail) (textBody (tail ++ more)) := by
  constructor
  · intro rest skipped
    exact Nat.lt_trans (length_textUpTo skipped) (length_visible visible)
  · intro rest skipped _
    exact textBody_append skipped more

/-- A numeral, which starts at its sign or after it. -/
theorem taken_unsignedNumber (leads : Leads b) {numeral : Bytes}
    (within : numeral.length ≤ bytes.length) (more : Bytes) :
    Taken bytes more (unsignedNumber numeral) (unsignedNumber (numeral ++ more)) := by
  constructor
  · intro rest skipped
    exact Nat.lt_of_lt_of_le (length_unsignedNumber skipped) within
  · rintro rest skipped (rfl | ends | other)
    · rw [List.append_nil, List.append_nil, skipped]
    · exact unsignedNumber_append more skipped ends
    · exact absurd leads (other b tail visible)

end Taken

/-- Everything that a step at a value can do. -/
theorem value_moves (stepped : Skip.value frames bytes = .ok (state, rest))
    (outer : List Frame) (more : Bytes) :
    Onward frames state ∧ rest.length < bytes.length ∧ (Firm bytes rest more →
      Skip.value (frames ++ outer) (bytes ++ more) = .ok (state.above outer, rest ++ more)) := by
  cases visible : skipBlanks bytes with
  | nil =>
    simp only [Skip.value, visible] at stepped
    cases stepped
  | cons b tail =>
    have within := length_visible visible
    have whole : (b :: tail).length ≤ bytes.length := within
    have opened {frame : Frame} (entered : enter frame frames tail = .ok (state, rest)) :
        Onward frames state ∧ rest.length < bytes.length ∧ (Firm bytes rest more →
          enter frame (frames ++ outer) (tail ++ more) = .ok (state.above outer, rest ++ more)) := by
      obtain ⟨onward, shorter, same⟩ := enter_moves entered outer more
      exact ⟨onward, Nat.lt_of_le_of_lt shorter within, fun _ => same⟩
    simp only [Skip.value, visible] at stepped
    simp only [Skip.value, skipBlanks_append visible more]
    split at stepped
    next null => rw [if_pos null]; exact (taken_letters visible _ more).moves stepped
    next notNull =>
    rw [if_neg notNull]
    split at stepped
    next yes => rw [if_pos yes]; exact (taken_letters visible _ more).moves stepped
    next notYes =>
    rw [if_neg notYes]
    split at stepped
    next no => rw [if_pos no]; exact (taken_letters visible _ more).moves stepped
    next notNo =>
    rw [if_neg notNo]
    split at stepped
    next negative =>
      rw [if_pos negative]
      exact (taken_unsignedNumber visible (.inl negative) within.le more).moves stepped
    next notNegative =>
    rw [if_neg notNegative]
    split at stepped
    next digit =>
      rw [if_pos digit]
      exact (taken_unsignedNumber visible (.inr digit) whole more).moves stepped
    next notDigit =>
    rw [if_neg notDigit]
    split at stepped
    next quoted => rw [if_pos quoted]; exact (taken_textBody visible more).moves stepped
    next notQuoted =>
    rw [if_neg notQuoted]
    split at stepped
    next list => rw [if_pos list]; exact opened stepped
    next notList =>
    rw [if_neg notList]
    split at stepped
    next object => rw [if_pos object]; exact opened stepped
    next => cases stepped

/-! Runs -/

theorem run_nil {bound : Bytes} (ran : run bound state [] = .ok rest) :
    state = .ended [] ∧ rest = [] := by
  cases state with
  | value frames => cases bound <;> exact nomatch ran
  | ended frames =>
    cases frames with
    | nil =>
      rw [run_ended] at ran
      cases ran
      exact ⟨rfl, rfl⟩
    | cons frame frames => cases bound <;> exact nomatch ran

/-- A run that has ended goes the same way below other frames and before other bytes. Where a
numeral stands inside of a frame, its end is certain: the run has found the end of the frame. -/
theorem steps_of_run {bound : Bytes} (ran : run bound state bytes = .ok rest)
    (firm : state = .value [] → Firm bytes rest more) (outer : List Frame) :
    ∃ count, Steps count (state.above outer) (bytes ++ more) (.ended outer) (rest ++ more) ∧
      (count = 0 → state = .ended []) := by
  induction bound generalizing state bytes with
  | nil =>
    cases state with
    | value frames => cases ran
    | ended frames =>
      cases frames with
      | nil =>
        cases ran
        exact ⟨0, ⟨by rw [Nat.zero_add], fun _ _ => rfl⟩, fun _ => rfl⟩
      | cons frame frames => cases ran
  | cons _ bound ih =>
    cases state with
    | value frames =>
      rw [run] at ran
      cases stepped : Skip.value frames bytes with
      | error fault =>
        rw [stepped] at ran
        cases ran
      | ok next =>
        obtain ⟨state, left⟩ := next
        rw [stepped] at ran
        obtain ⟨onward, shorter, same⟩ := value_moves stepped outer more
        have firm' : Firm bytes left more := by
          cases left with
          | cons b tail => exact .inr (.inl (List.cons_ne_nil b tail))
          | nil =>
            obtain ⟨rfl, rfl⟩ := run_nil ran
            cases onward with
            | ended => exact firm rfl
        have deeper : state ≠ .value [] := by
          cases onward <;> rintro ⟨⟩
        obtain ⟨count, steps, _⟩ := ih ran (fun none => absurd none deeper)
        refine ⟨1 + count, (Steps.value (same firm') ?_).trans steps, by omega⟩
        rw [List.length_append, List.length_append]
        omega
    | ended frames =>
      cases frames with
      | nil =>
        rw [run_ended] at ran
        cases ran
        exact ⟨0, ⟨by rw [Nat.zero_add], fun _ _ => rfl⟩, fun _ => rfl⟩
      | cons frame frames =>
        rw [run] at ran
        cases stepped : afterValue frame frames bytes with
        | error fault =>
          rw [stepped] at ran
          cases ran
        | ok next =>
          obtain ⟨state, left⟩ := next
          rw [stepped] at ran
          obtain ⟨deeper, shorter, same⟩ := afterValue_moves stepped outer more
          obtain ⟨count, steps, _⟩ := ih ran (fun none => absurd none deeper)
          refine ⟨1 + count, (Steps.after same ?_).trans steps, by omega⟩
          rw [List.length_append, List.length_append]
          omega

theorem skips_of_run {bound : Bytes} (ran : run bound (.value []) bytes = .ok rest)
    (firm : Firm bytes rest more) (frames : List Frame) :
    Skips frames (bytes ++ more) (rest ++ more) := by
  obtain ⟨count, steps, some⟩ := steps_of_run ran (fun _ => firm) frames
  cases count with
  | zero => exact nomatch some rfl
  | succ count => exact ⟨count, steps⟩

theorem Skips.run (skips : Skips [] bytes rest) : Skip.run bytes (.value []) bytes = .ok rest := by
  obtain ⟨count, shorter, steps⟩ := skips
  rw [steps bytes (by omega), run_ended]

theorem Skips.unique {rest' : Bytes} (skips : Skips [] bytes rest) (again : Skips [] bytes rest') :
    rest = rest' :=
  Except.ok.inj (skips.run.symm.trans again.run)

/-- What is skipped inside a value is a value of its own. -/
theorem skippable_skip : Skippable Json.skip := by
  intro bytes rest _ skipped frames
  obtain ⟨left, ran, skipped⟩ := ok_of_bind skipped
  cases skipped
  have skips := skips_of_run ran (.inl rfl) frames
  rwa [List.append_nil, List.append_nil] at skips

theorem Skippable.map {α β : Type} {reader : Reader α} (skippable : Skippable reader) (f : α → β) :
    Skippable (f <$> reader) := by
  intro bytes rest b read frames
  obtain ⟨⟨a, _⟩, found, done⟩ := ok_of_bind
    (show reader bytes >>= (fun r => pure (f r.1, r.2)) = _ from read)
  cases done
  exact skippable found frames

/-- A document that is no number begins with a byte that tells so. -/
theorem begins_write {j : Json} (other : ∀ n, j ≠ .number n) :
    ∃ b bytes, j.write = b :: bytes ∧ isBlank b = false ∧ ¬ Leads b := by
  match j with
  | .null | .flag true | .flag false | .text _ | .list [] | .list (_ :: _) | .object []
  | .object (_ :: _) =>
    refine ⟨_, _, rfl, by decide, ?_⟩
    rintro (same | digit)
    · exact absurd same (by decide)
    · exact absurd digit (by decide)
  | .number n => exact absurd rfl (other n)

/-- Where a document breaks off, no reader finds the end of a value. -/
theorem unread_of_cut {α : Type} {reader : Reader α} (skippable : Skippable reader) {j : Json}
    (whole : j.Whole) (other : ∀ n, j ≠ .number n) {part left : Bytes}
    (cut : part ++ left = j.write) (some : left ≠ []) (a : α) (rest : Bytes) :
    reader part ≠ .ok (a, rest) := by
  intro read
  have complete : Skips [] j.write [] := by
    have reads := Json.read_write j whole (Nat.le_refl _) [] .nil
    rw [List.append_nil] at reads
    exact skippable_read _ reads []
  have firm : Firm part rest left := by
    refine .inr (.inr fun b tail visible leads => ?_)
    obtain ⟨c, bytes, text, notBlank, notLeads⟩ := begins_write other
    cases part with
    | nil => exact nomatch visible
    | cons d part =>
      obtain ⟨rfl, _⟩ := List.cons.inj (cut.trans text)
      rw [skipBlanks_cons notBlank] at visible
      exact notLeads ((List.cons.inj visible).1 ▸ leads)
  have longer := skips_of_run (skippable read []).run firm []
  rw [cut] at longer
  exact some (List.append_eq_nil_iff.mp (longer.unique complete)).2

end AdmissionGuest.Skip
