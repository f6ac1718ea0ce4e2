import AdmissionGuest.Proofs.Json.Skip.Nested
import AdmissionGuest.Proofs.Shape.View
/-!
Reading the text of a document by a shape comes to viewing the document by that shape: both fail, or
both give the same value, and reading stops where the document ends. Here are the shapes without
members of their own: values without parts, choices, lists, and objects with arbitrary names.
-/

namespace AdmissionGuest

open Ascii Scan

/-- A reader finds what the view of a document gives and stops after the document, or both fail. -/
def Follows {α : Type} (read : Except Fault (α × Bytes)) (view : Except Cause α) (rest : Bytes) :
    Prop :=
  read.toOption = view.toOption.map fun a => (a, rest)

namespace Follows

variable {α β : Type} {read : Except Fault (α × Bytes)} {view : Except Cause α} {rest left : Bytes}

theorem done {a : α} : Follows (.ok (a, rest)) (.ok a) rest := rfl

theorem failed {fault : Fault} {cause : Cause} :
    Follows (.error fault : Except Fault (α × Bytes)) (.error cause) rest := rfl

/-- What comes after a test that fails. -/
theorem otherwise {c : Prop} [Decidable c] {found : Except Fault (α × Bytes)} (other : ¬ c)
    (follows : Follows read view rest) : Follows (if c then found else read) view rest := by
  rwa [if_neg other]

theorem bind (follows : Follows read view rest) {f : α × Bytes → Except Fault (β × Bytes)}
    {g : α → Except Cause β} (next : ∀ a, view = .ok a → Follows (f (a, rest)) (g a) left) :
    Follows (read >>= f) (view >>= g) left := by
  cases view with
  | error cause =>
    cases read with
    | error fault => exact failed
    | ok found => exact nomatch follows
  | ok a =>
    cases read with
    | error fault => exact nomatch follows
    | ok found =>
      obtain rfl := Option.some.inj follows
      exact next a rfl

/-- Nothing is made of a failure. -/
theorem stuck {cause cause' : Cause} (follows : Follows read (.error cause) rest)
    {f : α × Bytes → Except Fault (β × Bytes)} : Follows (read >>= f) (.error cause') left := by
  cases read with
  | error fault => exact failed
  | ok found => exact nomatch follows

theorem map (follows : Follows read view rest) (f : α → β) :
    Follows (read >>= fun r => pure (f r.1, r.2)) (f <$> view) rest := by
  cases view with
  | error cause => exact follows.stuck
  | ok a => exact follows.bind (g := fun a => pure (f a)) fun _ _ => done

theorem ok_iff (follows : Follows read view rest) {a : α} {left : Bytes} :
    read = .ok (a, left) ↔ view = .ok a ∧ left = rest := by
  cases view with
  | error cause =>
    cases read with
    | error fault => exact ⟨nofun, fun h => nomatch h.1⟩
    | ok found => exact nomatch follows
  | ok b =>
    cases read with
    | error fault => exact nomatch follows
    | ok found =>
      obtain rfl := Option.some.inj follows
      constructor
      · rintro ⟨⟩
        exact ⟨rfl, rfl⟩
      · rintro ⟨⟨⟩, rfl⟩
        rfl

end Follows

namespace Scan

theorem Leads.notOpening {b : UInt8} (leads : Leads b) :
    b ≠ quote ∧ b ≠ openList ∧ b ≠ openObject := by
  rcases leads with rfl | digit
  · decide
  · refine ⟨?_, ?_, ?_⟩ <;> (rintro rfl; exact absurd digit (by decide))

theorem faultOver_follows {α : Type} {close : UInt8} {cause cause' : Cause} {bytes rest : Bytes} :
    Follows (faultOver close cause bytes : Except Fault (α × Bytes)) (.error cause') rest := by
  unfold faultOver
  split
  next => exact .failed
  next => split <;> exact .failed

end Scan

namespace Shape

theorem bind_fails {α β ε : Type} (x : Except ε α) {f : α → Except ε β}
    (fails : ∀ a, ∃ e, f a = .error e) : ∃ e, x >>= f = .error e := by
  cases x with
  | error e => exact ⟨e, rfl⟩
  | ok a => exact fails a

theorem mismatch_fails {α : Type} (expected : String) (bytes : Bytes) :
    ∃ fault, (mismatch expected bytes : Except Fault (α × Bytes)) = .error fault := by
  cases bytes with
  | nil => exact ⟨_, rfl⟩
  | cons b tail =>
    simp only [mismatch]
    repeat' split
    all_goals first | exact ⟨_, rfl⟩ | exact bind_fails _ fun _ => ⟨_, rfl⟩

theorem mismatch_follows {α : Type} {expected : String} {bytes rest : Bytes} {cause : Cause} :
    Follows (mismatch expected bytes : Except Fault (α × Bytes)) (.error cause) rest := by
  obtain ⟨fault, wrong⟩ := mismatch_fails (α := α) expected bytes
  rw [wrong]
  exact .failed

variable {kept : Kept} {depth : Nat} {bytes rest : Bytes} {j : Json}

theorem readText_follows (expected : String) (read : Json.read depth bytes = .ok (j, rest)) :
    Follows (readText expected bytes) (Shape.text.view kept j) rest := by
  have begins := Json.begins_of_read read
  unfold readText
  generalize skipBlanks bytes = visible at begins
  cases begins with
  | null | yes | no | list | object => exact .otherwise (by decide) mismatch_follows
  | number leads => exact .otherwise leads.notOpening.1 mismatch_follows
  | text body =>
    simp only [if_true, body]
    exact .done

theorem readFlag_follows (read : Json.read depth bytes = .ok (j, rest)) :
    Follows (readFlag Shape.flag.expected bytes) (Shape.flag.view kept j) rest := by
  have begins := Json.begins_of_read read
  unfold readFlag
  generalize skipBlanks bytes = visible at begins
  cases begins with
  | null | text | list | object =>
    exact .otherwise (by decide) (.otherwise (by decide) mismatch_follows)
  | number leads =>
    exact .otherwise leads.notWord.2.1 (.otherwise leads.notWord.2.2 mismatch_follows)
  | yes word =>
    simp only [if_true, word]
    exact .done
  | no word =>
    simp only [if_neg (show letterF ≠ letterT by decide), if_true, word]
    exact .done

theorem readInt_follows (width : Width) (read : Json.read depth bytes = .ok (j, rest)) :
    Follows (readInt width bytes) ((Shape.int width).view kept j) rest := by
  have begins := Json.begins_of_read read
  unfold readInt
  generalize skipBlanks bytes = visible at begins
  cases begins with
  | null | yes | no | text | list | object =>
    exact .otherwise (by decide) mismatch_follows
  | @number b tail _ n leads numeral =>
    simp only [if_pos (show b = minus ∨ isDigit b = true from leads), numeral, bind, Except.bind]
    change Follows _ (intOf width n) rest
    cases intOf width n with
    | ok v => exact .done
    | error cause => exact .failed

/-! Lists and objects -/

section Parts

variable {α σ : Type} {reader : Reader Json}

/-- Wherever a document is read, the reader of its parts follows the view of it. -/
def Tracks (reader : Reader Json) (item : Reader α) (view : Json → Except Cause α) : Prop :=
  ∀ (bytes rest : Bytes) (j : Json), reader bytes = .ok (j, rest) →
    Follows (item bytes) (view j) rest

/-- Wherever the colon and the value of a member are read, what is done with the member follows a
step on it. -/
def TracksMembers (reader : Reader Json) (member : String → σ → Reader σ)
    (step : σ → String × Json → Except Cause σ) : Prop :=
  ∀ (name : String) (s : σ) (bytes value rest : Bytes) (x : Json),
    memberColon bytes = .ok ((), value) → reader value = .ok (x, rest) →
    Follows (member name s bytes) (step s (name, x)) rest

theorem items_follows {item : Reader α} {view : Json → Except Cause α}
    (each : Tracks reader item view) {bound : Bytes} {first : Bool} {xs : List Json}
    (read : items reader bound first bytes = .ok (xs, rest)) :
    Follows (items item bound first bytes) (xs.mapM view) rest := by
  induction bound generalizing first bytes xs with
  | nil => exact nomatch read
  | cons _ bound ih =>
    obtain ⟨⟨more, next⟩, moved, read⟩ := ok_of_bind read
    simp only [items, moved, bind, Except.bind]
    cases more with
    | false =>
      cases read
      exact .done
    | true =>
      obtain ⟨⟨x, left⟩, here, read⟩ := ok_of_bind (show reader next >>= _ = _ from read)
      obtain ⟨⟨xs, _⟩, later, read⟩ := ok_of_bind read
      cases read
      rw [List.mapM_cons]
      exact (each _ _ _ here).bind fun a _ => (ih later).bind fun as _ => .done

theorem listBody_follows {item : Reader α} {view : Json → Except Cause α}
    (each : Tracks reader item view) {xs : List Json}
    (read : listBody reader bytes = .ok (xs, rest)) :
    Follows (listBody item bytes) (xs.mapM view) rest := by
  obtain ⟨⟨xs, middle⟩, read, closing⟩ := ok_of_bind read
  obtain ⟨⟨⟨⟩, _⟩, ended, closing⟩ := ok_of_bind closing
  cases closing
  rw [← bind_pure (xs.mapM view)]
  refine (items_follows each read).bind fun as _ => ?_
  simp only [ended, bind, Except.bind]
  exact .done

/-- Whatever is done with the members, it is done with each of them in turn. -/
theorem members_follows {member : String → σ → Reader σ} {step : σ → String × Json → Except Cause σ}
    (each : TracksMembers reader member step) {bound : Bytes} {first : Bool}
    {before ms : List (String × Json)}
    (read : members (Json.keepMember reader) bound first before bytes = .ok (ms, rest)) :
    ∃ more : List (String × Json), ms = more.reverse ++ before ∧
      ∀ s, Follows (members member bound first s bytes) (more.foldlM step s) rest := by
  induction bound generalizing first bytes before with
  | nil => exact nomatch read
  | cons _ bound ih =>
    obtain ⟨⟨name, next⟩, moved, read⟩ := ok_of_bind read
    simp only [members, moved, bind, Except.bind]
    cases name with
    | none =>
      cases read
      exact ⟨[], rfl, fun s => .done⟩
    | some name =>
      obtain ⟨⟨kept, left⟩, member, read⟩ := ok_of_bind read
      obtain ⟨⟨⟨⟩, value⟩, colon, member⟩ := ok_of_bind member
      obtain ⟨⟨x, _⟩, here, member⟩ := ok_of_bind member
      cases member
      obtain ⟨more, rfl, follows⟩ := ih read
      refine ⟨(name, x) :: more, by simp, fun s => ?_⟩
      rw [List.foldlM_cons]
      exact (each _ _ _ _ _ _ colon here).bind fun t _ => follows t

theorem objectBody_follows {member : String → σ → Reader σ}
    {step : σ → String × Json → Except Cause σ}
    (each : TracksMembers reader member step) {ms : List (String × Json)} {s : σ}
    (read : objectBody (Json.keepMember reader) [] bytes = .ok (ms, rest)) :
    Follows (objectBody member s bytes) (ms.reverse.foldlM step s) rest := by
  obtain ⟨⟨ms, middle⟩, read, closing⟩ := ok_of_bind read
  obtain ⟨⟨⟨⟩, _⟩, ended, closing⟩ := ok_of_bind closing
  cases closing
  obtain ⟨more, rfl, follows⟩ := members_follows each read
  rw [List.append_nil, List.reverse_reverse, ← bind_pure (more.foldlM step s)]
  refine (follows s).bind fun t _ => ?_
  simp only [ended, bind, Except.bind]
  exact .done

theorem readList_follows {item : Shape}
    (each : ∀ d, Tracks (Json.read d) (item.read d) (item.view kept))
    (read : Json.read depth bytes = .ok (j, rest)) :
    Follows ((Shape.list item).read depth bytes) ((Shape.list item).view kept j) rest := by
  have begins := Json.begins_of_read read
  change Follows (readList (Shape.list item).expected item.read depth bytes) _ rest
  unfold readList
  generalize skipBlanks bytes = visible at begins
  cases begins with
  | null | yes | no | text | object => exact .otherwise (by decide) mismatch_follows
  | number leads => exact .otherwise leads.notOpening.2.1 mismatch_follows
  | list deeper items =>
    subst deeper
    exact listBody_follows (each _) items

theorem readDict_follows {item : Shape}
    (each : ∀ d, Tracks (Json.read d) (item.read d) (item.view kept))
    (read : Json.read depth bytes = .ok (j, rest)) :
    Follows ((Shape.dict item).read depth bytes) ((Shape.dict item).view kept j) rest := by
  have begins := Json.begins_of_read read
  change Follows (readDict (Shape.dict item).expected item.read depth bytes) _ rest
  unfold readDict
  generalize skipBlanks bytes = visible at begins
  cases begins with
  | null | yes | no | text | list => exact .otherwise (by decide) mismatch_follows
  | number leads => exact .otherwise leads.notOpening.2.2 mismatch_follows
  | @object inner tail _ ms deeper members =>
    subst deeper
    have step : TracksMembers (Json.read inner)
        (fun name (d : Dict String item.Val) => do
          memberColon
          return d.insert name (← item.read inner))
        (fun d (m : String × Json) => return d.insert m.1 (← item.view kept m.2)) := by
      intro name d bytes value rest x colon here
      change Follows (memberColon bytes >>= _) _ rest
      rw [colon]
      exact (each inner _ _ _ here).map _
    exact objectBody_follows step members

end Parts

/-! Choices -/

section Choices

variable {first : String} {others : List String}

theorem readChoiceName_follows {name : String} (body : textBody bytes = .ok (name, rest)) :
    Follows (readChoiceName first others bytes) (choiceOf first others name) rest := by
  simp only [readChoiceName, body, bind, Except.bind]
  cases choiceOf first others name with
  | ok i => exact .done
  | error cause => exact .failed

/-- Reads the null that stands beside the name of a choice. -/
def readUnit : Reader Unit := fun bytes =>
  match skipBlanks bytes with
  | [] => mismatch "unit" []
  | b :: rest =>
    if b = letterN then letters [letterU, 0x6C, 0x6C] rest else mismatch "unit" (b :: rest)

/-- Views the null that stands beside the name of a choice. -/
def viewUnit : Json → Except Cause Unit
  | .null => .ok ()
  | j => .error (.wrongType j.found "unit")

theorem readUnit_follows (read : Json.read depth bytes = .ok (j, rest)) :
    Follows (readUnit bytes) (viewUnit j) rest := by
  have begins := Json.begins_of_read read
  unfold readUnit
  generalize skipBlanks bytes = visible at begins
  cases begins with
  | yes | no | text | list | object => exact .otherwise (by decide) mismatch_follows
  | number leads => exact .otherwise leads.notWord.1 mismatch_follows
  | null word =>
    simp only [if_true, word]
    exact .done

/-- Ends a choice that is written as an object. -/
def endChoice {α : Type} (a : α) : Reader α := fun bytes =>
  match skipBlanks bytes with
  | [] => faultAfter .endInObject []
  | b :: rest =>
    if b = closeObject then .ok (a, rest) else faultAfter .expectedValue (b :: rest)

theorem readChoiceObject_quoted {after : Bytes} (visible : skipBlanks bytes = quote :: after) :
    readChoiceObject first others bytes =
      (readChoiceName first others after >>= fun r => memberColon r.2 >>= fun s =>
        readUnit s.2 >>= fun t => endChoice r.1 t.2) := by
  simp only [readChoiceObject, visible, if_true]
  refine congrArg (readChoiceName first others after >>= ·) (funext fun ⟨i, rest⟩ => ?_)
  refine congrArg (memberColon rest >>= ·) (funext fun ⟨⟨⟩, rest⟩ => ?_)
  simp only [readUnit]
  cases skipBlanks rest with
  | nil => rfl
  | cons c after =>
    dsimp only
    split <;> rfl

theorem viewChoice_member {name : String} {x : Json} :
    viewChoice first others (.object [(name, x)]) =
      (choiceOf first others name >>= fun i => viewUnit x >>= fun _ => pure i) := by
  cases x <;> rfl

section Member

variable {name : String} {x : Json} {after next value left : Bytes}
  (visible : skipBlanks bytes = quote :: after)
  (named : Follows (readChoiceName first others after) (choiceOf first others name) next)
  (colon : memberColon next = .ok ((), value)) (unit : Follows (readUnit value) (viewUnit x) left)

include visible named colon unit

theorem readChoiceObject_single (closed : skipBlanks left = closeObject :: rest) :
    Follows (readChoiceObject first others bytes) (viewChoice first others (.object [(name, x)]))
      rest := by
  rw [readChoiceObject_quoted visible, viewChoice_member]
  refine named.bind fun i _ => ?_
  simp only [colon, bind, Except.bind]
  refine unit.bind fun _ _ => ?_
  simp only [endChoice, closed, if_true]
  exact .done

/-- An object with a second member is no choice, and is not read as one either. -/
theorem readChoiceObject_more {more : Bytes} (separated : skipBlanks left = comma :: more)
    (m : String × Json) (ms : List (String × Json)) :
    Follows (readChoiceObject first others bytes)
      (viewChoice first others (.object ((name, x) :: m :: ms))) rest := by
  rw [readChoiceObject_quoted visible]
  cases found : readChoiceName first others after with
  | error fault => exact .failed
  | ok choice =>
    obtain ⟨i, _⟩ := choice
    obtain ⟨_, rfl⟩ := named.ok_iff.mp found
    simp only [colon, bind, Except.bind]
    cases null : readUnit value with
    | error fault => exact .failed
    | ok ended =>
      obtain ⟨_, rfl⟩ := unit.ok_iff.mp (show readUnit value = .ok ((), ended.2) from null)
      simp only [endChoice, separated, if_neg (show comma ≠ closeObject by decide)]
      exact .failed

end Member

/-- A choice written as an object has one member, whose value is null. -/
theorem readChoiceObject_follows {inner : Nat} {ms : List (String × Json)}
    (read : objectBody (Json.keepMember (Json.read inner)) [] bytes = .ok (ms, rest)) :
    Follows (readChoiceObject first others bytes)
      (viewChoice first others (.object ms.reverse)) rest := by
  obtain ⟨⟨ms, middle⟩, read, closing⟩ := ok_of_bind read
  obtain ⟨⟨⟨⟩, _⟩, ended, closing⟩ := ok_of_bind closing
  cases closing
  obtain ⟨⟨name, next⟩, moved, read⟩ := ok_of_bind read
  cases nextName_inv moved with
  | close visible =>
    cases read
    unfold readChoiceObject
    rw [visible]
    exact .failed
  | @first _ after _ name visible body =>
    obtain ⟨⟨_, left⟩, member, read⟩ := ok_of_bind read
    obtain ⟨⟨⟨⟩, value⟩, colon, member⟩ := ok_of_bind member
    obtain ⟨⟨x, _⟩, here, member⟩ := ok_of_bind member
    cases member
    have named : Follows (readChoiceName first others after) (choiceOf first others name) next :=
      readChoiceName_follows body
    have unit := readUnit_follows here
    cases bound : bytes with
    | nil =>
      rw [bound] at visible
      exact nomatch visible
    | cons _ bound =>
      subst bytes
      obtain ⟨⟨again, next⟩, moved, read⟩ := ok_of_bind read
      cases nextName_inv moved with
      | close closed =>
        cases read
        cases ended
        exact readChoiceObject_single visible named colon unit closed
      | @comma _ _ _ _ again separated =>
        obtain ⟨⟨_, _⟩, member, read⟩ := ok_of_bind read
        obtain ⟨⟨⟨⟩, _⟩, _, member⟩ := ok_of_bind member
        obtain ⟨⟨y, _⟩, _, member⟩ := ok_of_bind member
        cases member
        -- What the later members are does not matter: two of them are too many already.
        have each : TracksMembers (Json.read inner) (fun _ (_ : Unit) => faultAt .endInValue)
            (fun _ _ => .error .expectedName) := fun _ _ _ _ _ _ _ _ => .failed
        obtain ⟨more, rfl, _⟩ := members_follows each read
        have two : (more.reverse ++ [(again, y), (name, x)]).reverse =
            (name, x) :: (again, y) :: more := by simp
        rw [two]
        exact readChoiceObject_more visible named colon unit separated (again, y) more

theorem readChoice_follows (read : Json.read depth bytes = .ok (j, rest)) :
    Follows ((Shape.choice first others).read depth bytes) ((Shape.choice first others).view kept j)
      rest := by
  have begins := Json.begins_of_read read
  change Follows (readChoice first others depth bytes) (viewChoice first others j) rest
  unfold readChoice
  generalize skipBlanks bytes = visible at begins
  cases begins with
  | null | yes | no | list => exact .otherwise (by decide) (.otherwise (by decide) .failed)
  | number leads => exact .otherwise leads.notOpening.1 (.otherwise leads.notOpening.2.2 .failed)
  | text body => exact readChoiceName_follows body
  | object deeper members =>
    subst deeper
    exact readChoiceObject_follows members

end Choices

end Shape

end AdmissionGuest
