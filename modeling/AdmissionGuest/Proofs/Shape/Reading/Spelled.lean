import AdmissionGuest.Proofs.Json.Spelling.Uniform
import AdmissionGuest.Proofs.Shape.Reading.Record
/-!
The readers of values without parts, of choices, lists and objects with arbitrary names make the
same of a spelled document wherever that stands.
-/

namespace AdmissionGuest

open Ascii Scan Spelling

namespace Shape

variable {α : Type} {rest : Bytes}

/-- What a document is where a text is expected. -/
def onText : Spelling → Except Cause String
  | .text ms => textOf ms
  | _ => .error .expectedValue

theorem readText_finds (expected : String) (d : Spelling) :
    (readText expected).Finds d (onText d) := by
  intro bs rest stops
  have begins := begins_blanks bs d rest
  unfold readText
  generalize skipBlanks _ = visible at begins
  cases begins with
  | null | yes | no | list | object => exact .otherwise (by decide) mismatch_follows
  | number leads => exact .otherwise leads.notOpening.1 mismatch_follows
  | text ms => exact text_follows ms rest

theorem readText_uniform (expected : String) : (readText expected).Uniform :=
  fun d => (readText_finds expected d).on

theorem readFlag_uniform (expected : String) : (readFlag expected).Uniform := by
  refine Reader.uniform_of_finds fun d =>
    ⟨match d with | .flag b => .ok b | _ => .error .expectedValue, fun bs rest stops => ?_⟩
  have begins := begins_blanks bs d rest
  unfold readFlag
  generalize skipBlanks _ = visible at begins
  cases begins with
  | null | text | list | object =>
    exact .otherwise (by decide) (.otherwise (by decide) mismatch_follows)
  | number leads =>
    exact .otherwise leads.notWord.2.1 (.otherwise leads.notWord.2.2 mismatch_follows)
  | yes word =>
    simp only [if_true, word]
    exact .done
  | no word =>
    simp only [if_neg (show letterF ≠ letterT by decide), if_true, word]
    exact .done

/-- What a document is where an integer is expected. -/
def onInt (width : Width) : Spelling → Except Cause width.Val
  | .number n => numberOf n >>= intOf width
  | _ => .error .expectedValue

theorem readInt_finds (width : Width) (d : Spelling) : (readInt width).Finds d (onInt width d) := by
  intro bs rest stops
  have begins := begins_blanks bs d rest
  unfold readInt
  generalize skipBlanks _ = visible at begins
  cases begins with
  | null | yes | no | text | list | object =>
    exact .otherwise (by decide) mismatch_follows
  | @number n b tail leads written =>
    have numeral := number_follows n stops
    rw [written] at numeral
    simp only [if_pos (show b = minus ∨ isDigit b = true from leads)]
    refine numeral.bind fun number _ => ?_
    dsimp only
    cases intOf width number with
    | ok v => exact .done
    | error cause => exact .failed

theorem readInt_uniform (width : Width) : (readInt width).Uniform :=
  fun d => (readInt_finds width d).on

section Nested

variable {item : Nat → Reader α} (uniform : ∀ depth, (item depth).Uniform)

/-- What a document is where a list is expected. -/
def onList (item : Nat → Reader α) : Spelling → Nat → Except Cause (List α)
  | .list _ xs, depth + 1 => xs.mapM fun x => (item depth).on x.value
  | _, _ => .error .expectedValue

include uniform in
theorem readList_finds (expected : String) (depth : Nat) (d : Spelling) :
    (readList expected item depth).Finds d (onList item d depth) := by
  intro bs rest stops
  have begins := begins_blanks bs d rest
  unfold readList
  generalize skipBlanks _ = visible at begins
  cases begins with
  | null | yes | no | text | object =>
    exact .otherwise (by decide) mismatch_follows
  | number leads => exact .otherwise leads.notOpening.2.1 mismatch_follows
  | list inside xs =>
    cases depth with
    | zero => exact .failed
    | succ depth => exact Spelling.listBody_follows (uniform depth) xs inside rest

include uniform in
theorem readList_uniform (expected : String) (depth : Nat) :
    (readList expected item depth).Uniform :=
  fun d => (readList_finds uniform expected depth d).on

/-- Puts a member of an object with arbitrary names where it belongs. -/
def enter (item : Reader α) (name : String) (d : Spelling) (dict : Dict String α) :
    Except Cause (Dict String α) :=
  (fun v => dict.insert name v) <$> item.on d

/-- What a document is where an object with arbitrary names is expected. -/
def onDict (item : Nat → Reader α) : Spelling → Nat → Except Cause (Dict String α)
  | .object _ ms, depth + 1 => ms.foldlM (stepOver (enter (item depth))) Dict.empty
  | _, _ => .error .expectedValue

include uniform in
theorem readDict_finds (expected : String) (depth : Nat) (d : Spelling) :
    (readDict expected item depth).Finds d (onDict item d depth) := by
  intro bs rest stops
  have begins := begins_blanks bs d rest
  unfold readDict
  generalize skipBlanks _ = visible at begins
  cases begins with
  | null | yes | no | text | list => exact .otherwise (by decide) mismatch_follows
  | number leads => exact .otherwise leads.notOpening.2.2 mismatch_follows
  | object inside ms =>
    cases depth with
    | zero => exact .failed
    | succ depth =>
      have each : FollowsMembers (fun name (dict : Dict String α) => do
          memberColon
          return dict.insert name (← item depth)) (enter (item depth)) :=
        fun name dict bs bs' d rest stops =>
          Spelling.member_follows (uniform depth) (fun v => dict.insert name v) bs bs' d stops
      exact Spelling.objectBody_follows each ms Dict.empty inside rest

include uniform in
theorem readDict_uniform (expected : String) (depth : Nat) :
    (readDict expected item depth).Uniform :=
  fun d => (readDict_finds uniform expected depth d).on

end Nested

/-- What a document is where a value may be absent. -/
def onOptional (item : Reader α) : Spelling → Except Cause (Option α)
  | .null => .ok none
  | d => some <$> item.on d

theorem readOptional_finds {item : Reader α} (uniform : item.Uniform) (d : Spelling) :
    (readOptional item).Finds d (onOptional item d) := by
  intro bs rest stops
  have begins := begins_blanks bs d rest
  have here := uniform d [] rest stops
  change Follows (item (d.bytes ++ rest)) _ rest at here
  rw [← skipBlanks_bytes bs d rest] at here
  unfold readOptional
  generalize skipBlanks _ = visible at begins here
  have present {b : UInt8} {tail : Bytes} {null : Except Fault (Option α × Bytes)}
      {view : Except Cause α} (notNull : b ≠ letterN)
      (here : Follows (item (b :: tail)) view rest) :
      Follows (if b = letterN then null
        else item (b :: tail) >>= fun r => pure (some r.1, r.2)) (some <$> view) rest := by
    rw [if_neg notNull]
    exact here.map some
  cases begins with
  | yes | no | text | list | object => exact present (by decide) here
  | number leads => exact present leads.notWord.1 here
  | null word =>
    simp only [if_true, word]
    exact .done

theorem readPresent_uniform {item : Reader α} (uniform : item.Uniform) (p : Presence) :
    (readPresent p item).Uniform := by
  cases p with
  | required | defaulted => exact uniform
  | optional => exact fun d => (readOptional_finds uniform d).on

/-! Choices -/

section Choices

variable {first : String} {others : List String}

theorem readChoiceName_marks (name : List Mark) (rest : Bytes) :
    Follows (readChoiceName first others (markBytes name ++ quote :: rest))
      (textOf name >>= choiceOf first others) rest := by
  refine (text_follows name rest).bind fun name _ => ?_
  dsimp only
  cases choiceOf first others name with
  | ok i => exact .done
  | error cause => exact .failed

theorem readUnit_uniform : readUnit.Uniform := by
  refine Reader.uniform_of_finds fun d =>
    ⟨match d with | .null => .ok () | _ => .error .expectedValue, fun bs rest stops => ?_⟩
  have begins := begins_blanks bs d rest
  unfold readUnit
  generalize skipBlanks _ = visible at begins
  cases begins with
  | yes | no | text | list | object => exact .otherwise (by decide) mismatch_follows
  | number leads => exact .otherwise leads.notWord.1 mismatch_follows
  | null word =>
    simp only [if_true, word]
    exact .done

/-- A choice written as an object has one member, whose value is null. -/
def choiceOn (first : String) (others : List String) :
    List (Member Spelling) → Except Cause (Fin (others.length + 1))
  | [] => .error .expectedValue
  | m :: ms => do
    let i ← textOf m.name >>= choiceOf first others
    let () ← readUnit.on m.value
    match ms with
    | [] => return i
    | _ => .error .expectedValue

theorem readChoiceObject_members (ms : List (Member Spelling)) (inside : List Blank)
    (rest : Bytes) :
    Follows (readChoiceObject first others
        (blanks inside ++ (memberBytes true ms ++ closeObject :: rest)))
      (choiceOn first others ms) rest := by
  cases ms with
  | nil =>
    have here : skipBlanks (blanks inside ++ closeObject :: rest) = closeObject :: rest :=
      skipBlanks_blanks inside _
    change Follows (readChoiceObject first others (blanks inside ++ closeObject :: rest)) _ rest
    unfold readChoiceObject
    rw [here]
    exact .failed
  | cons m ms =>
    have named : Follows (readChoiceName first others _) _ _ :=
      readChoiceName_marks m.name (afterName m ms (closeObject :: rest))
    have unit := readUnit_uniform m.value m.afterColon _ (stops_members ms m.after rest)
    have visible : skipBlanks (blanks inside ++ (memberBytes true (m :: ms) ++ closeObject :: rest))
        = quote :: (markBytes m.name ++ quote :: afterName m ms (closeObject :: rest)) := by
      rw [memberBytes_cons, if_pos rfl, List.nil_append, skipBlanks_blanks, skipBlanks_blanks]
      rfl
    rw [readChoiceObject_quoted visible]
    refine named.bind fun i _ => ?_
    rw [afterName, memberColon_blanks]
    refine Follows.bind unit fun _ _ => ?_
    cases ms with
    | nil =>
      have closed : skipBlanks (blanks m.after ++ closeObject :: rest) = closeObject :: rest :=
        skipBlanks_blanks m.after _
      change Follows (endChoice i (blanks m.after ++ closeObject :: rest)) _ rest
      simp only [endChoice, closed, if_true]
      exact .done
    | cons m' ms =>
      have separated : skipBlanks (blanks m.after ++
          (memberBytes false (m' :: ms) ++ closeObject :: rest)) =
            comma :: (blanks m'.before ++ (quote :: (markBytes m'.name ++ quote ::
              afterName m' ms (closeObject :: rest)))) := by
        rw [memberBytes_cons, skipBlanks_blanks]
        rfl
      change Follows (endChoice i _) _ rest
      simp only [endChoice, separated, if_neg (show comma ≠ closeObject by decide)]
      exact .failed

theorem readChoice_uniform (depth : Nat) : (readChoice first others depth).Uniform := by
  refine Reader.uniform_of_finds fun d =>
    ⟨match d, depth with
      | .text ms, _ => textOf ms >>= choiceOf first others
      | .object _ ms, _ + 1 => choiceOn first others ms
      | _, _ => .error .expectedValue, fun bs rest stops => ?_⟩
  have begins := begins_blanks bs d rest
  unfold readChoice
  generalize skipBlanks _ = visible at begins
  cases begins with
  | null | yes | no | list => exact .otherwise (by decide) (.otherwise (by decide) .failed)
  | number leads => exact .otherwise leads.notOpening.1 (.otherwise leads.notOpening.2.2 .failed)
  | text ms => exact readChoiceName_marks ms rest
  | object inside ms =>
    cases depth with
    | zero => exact .failed
    | succ depth => exact readChoiceObject_members ms inside rest

end Choices

end Shape

end AdmissionGuest
