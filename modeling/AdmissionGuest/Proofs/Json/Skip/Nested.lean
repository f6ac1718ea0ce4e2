import AdmissionGuest.Proofs.Json.Skip.Scalar
/-!
A value that can be read is skipped to where reading it stops. Reading goes down with the nesting,
skipping keeps the open lists and objects on a stack; a value of any nesting leads from a state to
the one in which it has ended, with the frames around it unchanged.
-/

namespace AdmissionGuest

open Ascii Scan

namespace Skip

/-- Skipping leads from one state to another in a number of steps, each of which takes a byte. -/
def Steps (count : Nat) (state : State) (bytes : Bytes) (next : State) (rest : Bytes) : Prop :=
  count + rest.length ≤ bytes.length ∧
    ∀ bound, count ≤ bound.length → run bound state bytes = run (bound.drop count) next rest

theorem run_ended (bound bytes : Bytes) : run bound (.ended []) bytes = .ok bytes := by
  cases bound <;> rfl

theorem Steps.trans {first second : Nat} {s t u : State} {bytes middle rest : Bytes}
    (before : Steps first s bytes t middle) (after : Steps second t middle u rest) :
    Steps (first + second) s bytes u rest := by
  obtain ⟨shorter, one⟩ := before
  obtain ⟨shortest, two⟩ := after
  refine ⟨by omega, fun bound enough => ?_⟩
  rw [one bound (by omega), two _ (by rw [List.length_drop]; omega), List.drop_drop]

variable {frame : Frame} {frames : List Frame} {state : State} {bytes rest : Bytes}

theorem Steps.value (stepped : Skip.value frames bytes = .ok (state, rest))
    (shorter : rest.length < bytes.length) : Steps 1 (.value frames) bytes state rest := by
  refine ⟨by omega, fun bound enough => ?_⟩
  cases bound with
  | nil => exact absurd enough (by simp)
  | cons b bound =>
    rw [run, stepped]
    rfl

theorem Steps.after (stepped : afterValue frame frames bytes = .ok (state, rest))
    (shorter : rest.length < bytes.length) :
    Steps 1 (.ended (frame :: frames)) bytes state rest := by
  refine ⟨by omega, fun bound enough => ?_⟩
  cases bound with
  | nil => exact absurd enough (by simp)
  | cons b bound =>
    rw [run, stepped]
    rfl

/-! Lists and objects -/

theorem value_skipBlanks (frames : List Frame) (bytes : Bytes) :
    value frames (skipBlanks bytes) = value frames bytes := by
  simp only [value, skipBlanks_skipBlanks]

theorem beforeValue_name {bytes after middle rest : Bytes} {name : String}
    (visible : skipBlanks bytes = quote :: after) (body : Scan.textBody after = .ok (name, middle))
    (separated : skipBlanks middle = colon :: rest) : beforeValue .object bytes = .ok rest := by
  simp only [beforeValue, visible, if_true, textBody_of_scan body, separated, bind, Except.bind]

theorem length_beforeValue (skipped : beforeValue frame bytes = .ok rest) :
    rest.length ≤ bytes.length := by
  cases frame with
  | list =>
    cases skipped
    exact Nat.le_refl _
  | object =>
    have shorter := length_skipBlanks_le bytes
    cases visible : skipBlanks bytes with
    | nil =>
      simp only [beforeValue, visible] at skipped
      exact nomatch skipped
    | cons b tail =>
      rw [visible, List.length_cons] at shorter
      simp only [beforeValue, visible] at skipped
      split at skipped
      next =>
        obtain ⟨left, body, skipped⟩ := ok_of_bind skipped
        have inside := length_textUpTo body
        have blanks := length_skipBlanks_le left
        split at skipped
        next => exact nomatch skipped
        next after =>
          rw [after, List.length_cons] at blanks
          split at skipped
          next =>
            cases skipped
            omega
          next => exact nomatch skipped
      next => exact nomatch skipped

/-- A value is skipped, from the blanks before it on. -/
def Skips (frames : List Frame) (bytes rest : Bytes) : Prop :=
  ∃ count, Steps (count + 1) (.value frames) bytes (.ended frames) rest

theorem Skips.blanks (skips : Skips frames (skipBlanks bytes) rest) : Skips frames bytes rest := by
  obtain ⟨count, shorter, steps⟩ := skips
  refine ⟨count, shorter.trans (length_skipBlanks_le bytes), fun bound enough => ?_⟩
  rw [← steps bound enough]
  cases bound with
  | nil => exact absurd enough (by simp)
  | cons b bound => rw [run, run, value_skipBlanks]

/-- A reader whose values are skipped to where it stops. -/
def Skippable {α : Type} (reader : Reader α) : Prop :=
  ∀ ⦃bytes rest : Bytes⦄ ⦃a : α⦄, reader bytes = .ok (a, rest) → ∀ frames, Skips frames bytes rest

def Frame.opens : Frame → UInt8
  | list => openList
  | object => openObject

/-- From inside a frame, before its first part or after one, skipping gets behind its closing
bracket. Before the first part there is no state to be in, so the opening bracket is skipped with
it. -/
def Leaves (frame : Frame) (frames : List Frame) (first : Bool) (bytes rest : Bytes) : Prop :=
  if first then ∀ start, skipBlanks start = frame.opens :: bytes → Skips frames start rest
  else ∃ count, Steps (count + 1) (.ended (frame :: frames)) bytes (.ended frames) rest

section Leaves

variable {first : Bool} {start value left : Bytes}

theorem value_opens (frames : List Frame) (opened : skipBlanks start = frame.opens :: bytes) :
    Skip.value frames start = enter frame frames bytes ∧ bytes.length < start.length := by
  have shorter := length_skipBlanks_le start
  rw [opened, List.length_cons] at shorter
  refine ⟨?_, shorter⟩
  rw [← value_skipBlanks, opened]
  cases frame <;> rfl

theorem Leaves.close (visible : skipBlanks bytes = frame.close :: rest) :
    Leaves frame frames first bytes rest := by
  have shorter := length_skipBlanks_le bytes
  rw [visible, List.length_cons] at shorter
  cases first with
  | true =>
    intro start opened
    obtain ⟨entered, inside⟩ := value_opens frames opened
    refine ⟨0, .value ?_ (by omega)⟩
    rw [entered, enter, visible]
    exact if_pos rfl
  | false =>
    refine ⟨0, .after ?_ shorter⟩
    have other : frame.close ≠ comma := by cases frame <;> decide
    simp only [afterValue, visible]
    rw [if_neg other, if_pos trivial]

/-- What comes before a part of a frame: a comma, unless it is the first one. -/
inductive Before (frame : Frame) : Bool → Bytes → Bytes → Prop where
  | first {b : UInt8} {bytes tail value : Bytes} (visible : skipBlanks bytes = b :: tail)
    (inside : b ≠ frame.close) (before : beforeValue frame (b :: tail) = .ok value) :
    Before frame true bytes value
  | comma {bytes after value : Bytes} (visible : skipBlanks bytes = comma :: after)
    (before : beforeValue frame after = .ok value) : Before frame false bytes value

theorem Leaves.part (before : Before frame first bytes value)
    (skips : Skips (frame :: frames) value left) (later : Leaves frame frames false left rest) :
    Leaves frame frames first bytes rest := by
  obtain ⟨one, taken⟩ := skips
  obtain ⟨others, ended⟩ := later
  have shorter := length_skipBlanks_le bytes
  cases before with
  | first visible inside before =>
    intro start opened
    obtain ⟨entered, deeper⟩ := value_opens frames opened
    have step : Skip.value frames start = .ok (.value (frame :: frames), value) := by
      simp only [entered, enter, visible, before]
      exact if_neg inside
    have within := length_beforeValue before
    rw [visible] at shorter
    refine ⟨(one + 1) + (others + 1), ?_⟩
    rw [Nat.add_comm]
    exact (Steps.value step (by omega)).trans (taken.trans ended)
  | comma visible before =>
    have step : afterValue frame frames bytes = .ok (.value (frame :: frames), value) := by
      simp only [afterValue, visible, if_true, before]
      rfl
    have within := length_beforeValue before
    rw [visible, List.length_cons] at shorter
    refine ⟨(one + 1) + (others + 1), ?_⟩
    rw [Nat.add_comm]
    exact (Steps.after step (by omega)).trans (taken.trans ended)

theorem Leaves.item {next : Bytes} (moved : NextItem first bytes true next)
    (skips : Skips (.list :: frames) next left) (later : Leaves .list frames false left rest) :
    Leaves .list frames first bytes rest := by
  cases moved with
  | first visible inside => exact .part (.first visible inside rfl) skips later
  | comma visible item inside =>
    rw [← item] at skips
    exact .part (.comma visible rfl) skips.blanks later

theorem Leaves.member {name : String} {next : Bytes} (moved : NextName first bytes (some name) next)
    (separated : skipBlanks next = colon :: value) (skips : Skips (.object :: frames) value left)
    (later : Leaves .object frames false left rest) : Leaves .object frames first bytes rest := by
  cases moved with
  | first visible body =>
    have before := beforeValue_name (skipBlanks_cons (by decide)) body separated
    exact .part (.first visible (by decide) before) skips later
  | comma visible item body =>
    exact .part (.comma visible (beforeValue_name item body separated)) skips later

/-- Items that are skipped one by one are skipped up to the end of their list. -/
theorem leaves_items {α : Type} {item : Reader α} (skippable : Skippable item)
    {bound middle : Bytes} {xs : List α} (read : items item bound first bytes = .ok (xs, middle))
    (ended : endList middle = .ok ((), rest)) : Leaves .list frames first bytes rest := by
  induction bound generalizing first bytes xs with
  | nil => exact nomatch read
  | cons _ bound ih =>
    obtain ⟨⟨more, next⟩, moved, read⟩ := ok_of_bind read
    have moved := nextItem_inv moved
    cases more with
    | false =>
      cases moved with
      | close visible =>
        cases read
        cases ended
        exact .close visible
    | true =>
      obtain ⟨⟨x, left⟩, here, read⟩ := ok_of_bind (show item next >>= _ = _ from read)
      obtain ⟨⟨xs, _⟩, later, read⟩ := ok_of_bind read
      cases read
      exact .item moved (skippable here _) (ih later)

theorem leaves_restOfList {α : Type} {item : Reader α} (skippable : Skippable item) {xs : List α}
    (read : restOfList first item bytes = .ok (xs, rest)) :
    Leaves .list frames first bytes rest := by
  obtain ⟨⟨xs, middle⟩, read, closing⟩ := ok_of_bind read
  obtain ⟨⟨⟨⟩, _⟩, ended, closing⟩ := ok_of_bind closing
  cases closing
  exact leaves_items skippable read ended

/-- Every bound is as good as another that has more bytes than are left. -/
theorem items_of_enough {α : Type} {item : Reader α} (skippable : Skippable item)
    {bound bound' : Bytes} {xs : List α} (enough : bytes.length < bound'.length)
    (read : items item bound first bytes = .ok (xs, rest)) :
    items item bound' first bytes = .ok (xs, rest) := by
  induction bound generalizing bound' first bytes xs with
  | nil => exact nomatch read
  | cons _ bound ih =>
    cases bound' with
    | nil => contradiction
    | cons _ bound' =>
      obtain ⟨⟨more, next⟩, moved, read⟩ := ok_of_bind read
      simp only [items, moved, bind, Except.bind]
      cases more with
      | false => exact read
      | true =>
        obtain ⟨⟨x, left⟩, here, read⟩ := ok_of_bind (show item next >>= _ = _ from read)
        obtain ⟨⟨xs, _⟩, later, read⟩ := ok_of_bind read
        cases read
        obtain ⟨count, shorter, _⟩ := skippable here []
        have within := length_of_nextItem (nextItem_inv moved)
        have enough : left.length < bound'.length := by
          rw [List.length_cons] at enough
          omega
        simp only [here, ih enough later, if_true]
        rfl

/-- The value of a member is skipped, from the colon before it on. -/
def SkipsMember (bytes rest : Bytes) : Prop :=
  ∃ value, skipBlanks bytes = colon :: value ∧ ∀ frames, Skips frames value rest

theorem skipsMember_of_colon {α : Type} {reader : Reader α} (skippable : Skippable reader)
    {value : Bytes} {a : α} (separated : memberColon bytes = .ok ((), value))
    (read : reader value = .ok (a, rest)) : SkipsMember bytes rest :=
  ⟨value, memberColon_inv separated, skippable read⟩

theorem leaves_members {σ : Type} {member : String → σ → Reader σ}
    (skippable : ∀ name s bytes t rest, member name s bytes = .ok (t, rest) →
      SkipsMember bytes rest)
    {bound middle : Bytes} {s t : σ} (read : members member bound first s bytes = .ok (t, middle))
    (ended : endObject middle = .ok ((), rest)) : Leaves .object frames first bytes rest := by
  induction bound generalizing first bytes s with
  | nil => exact nomatch read
  | cons _ bound ih =>
    obtain ⟨⟨name, next⟩, moved, read⟩ := ok_of_bind read
    have moved := nextName_inv moved
    cases name with
    | none =>
      cases moved with
      | close visible =>
        cases read
        cases ended
        exact .close visible
    | some name =>
      obtain ⟨⟨u, left⟩, here, read⟩ := ok_of_bind read
      obtain ⟨value, separated, skips⟩ := skippable _ _ _ _ _ here
      exact .member moved separated (skips _) (ih read)

theorem leaves_objectBody {σ : Type} {member : String → σ → Reader σ}
    (skippable : ∀ name s bytes t rest, member name s bytes = .ok (t, rest) →
      SkipsMember bytes rest)
    {s t : σ} (read : objectBody member s bytes = .ok (t, rest)) :
    Leaves .object frames true bytes rest := by
  obtain ⟨⟨t, middle⟩, read, closing⟩ := ok_of_bind read
  obtain ⟨⟨⟨⟩, _⟩, ended, closing⟩ := ok_of_bind closing
  cases closing
  exact leaves_members skippable read ended

end Leaves

/-! Documents -/

theorem value_number {b : UInt8} {tail : Bytes} {n : Number} (leads : Leads b)
    (numeral : Scan.number (b :: tail) = .ok (n, rest)) :
    value frames (b :: tail) = .ok (.ended frames, rest) ∧ rest.length < (b :: tail).length := by
  obtain ⟨notNull, notTrue, notFalse⟩ := leads.notWord
  have visible : skipBlanks (b :: tail) = b :: tail := skipBlanks_cons leads.visible.1
  by_cases negative : b = minus
  · subst negative
    have skipped := unsignedNumber_of_scan (show Scan.unsignedNumber true tail = _ from numeral)
    refine ⟨?_, Nat.lt_succ_of_lt (length_unsignedNumber skipped)⟩
    change ((unsignedNumber tail).map fun rest => (State.ended frames, rest)) = _
    rw [skipped]
    rfl
  · have digit : isDigit b = true := leads.resolve_left negative
    have unsigned : Scan.number (b :: tail) = Scan.unsignedNumber false (b :: tail) := by
      rw [Scan.number]
      intro more same
      exact negative (List.cons.inj same).1
    have skipped := unsignedNumber_of_scan (unsigned ▸ numeral)
    refine ⟨?_, length_unsignedNumber skipped⟩
    simp only [value, visible, if_neg notNull, if_neg notTrue, if_neg notFalse, if_neg negative,
      if_pos digit, skipped]
    rfl

section Scalars

variable {tail : Bytes}

theorem skips_scalar {visible : Bytes} (start : skipBlanks bytes = visible)
    (skipped : value frames visible = .ok (.ended frames, rest))
    (taken : rest.length < visible.length) : Skips frames bytes rest := by
  have shorter := length_skipBlanks_le bytes
  rw [start] at shorter
  refine ⟨0, .value ?_ (Nat.lt_of_lt_of_le taken shorter)⟩
  rw [← value_skipBlanks, start, skipped]

theorem skips_number {b : UInt8} {n : Number} (start : skipBlanks bytes = b :: tail)
    (leads : Leads b) (numeral : Scan.number (b :: tail) = .ok (n, rest)) :
    Skips frames bytes rest := by
  obtain ⟨skipped, taken⟩ := value_number leads numeral
  exact skips_scalar start skipped taken

theorem skips_text {s : String} (start : skipBlanks bytes = quote :: tail)
    (body : Scan.textBody tail = .ok (s, rest)) : Skips frames bytes rest := by
  have skipped := textBody_of_scan body
  refine skips_scalar start ?_ (Nat.lt_succ_of_lt (length_textUpTo skipped))
  change ((textBody tail).map fun rest => (State.ended frames, rest)) = _
  rw [skipped]
  rfl

/-- The words of the language, by their first letter and the others. -/
inductive Word : UInt8 → List UInt8 → Prop where
  | null : Word letterN [letterU, 0x6C, 0x6C]
  | yes : Word letterT [letterR, letterU, 0x65]
  | no : Word letterF [0x61, 0x6C, 0x73, 0x65]

theorem skips_word {letter : UInt8} {more : List UInt8} (word : Word letter more)
    (start : skipBlanks bytes = letter :: tail) (spelled : letters more tail = .ok ((), rest)) :
    Skips frames bytes rest := by
  refine skips_scalar start ?_ (Nat.lt_succ_of_le (length_letters spelled))
  have known : value frames (letter :: tail) =
      ((letters more tail).map Prod.snd).map fun rest => (State.ended frames, rest) := by
    cases word <;> rfl
  rw [known, spelled]
  rfl

end Scalars

/-- What is skipped is what would be read. The cases are the ways in which a document begins. -/
theorem skips_of_begins {depth : Nat} {j : Json} {visible : Bytes}
    (start : skipBlanks bytes = visible) (begins : Json.Begins depth visible j rest)
    (inner : ∀ d, depth = d + 1 → Skippable (Json.read d)) : Skips frames bytes rest := by
  cases begins with
  | null spelled => exact skips_word .null start spelled
  | yes spelled => exact skips_word .yes start spelled
  | no spelled => exact skips_word .no start spelled
  | number leads numeral => exact skips_number start leads numeral
  | text body => exact skips_text start body
  | list deeper items => exact leaves_restOfList (inner _ deeper) items _ start
  | object deeper members =>
    refine leaves_objectBody (fun name ms bytes t rest here => ?_) members _ start
    obtain ⟨⟨⟨⟩, value⟩, separated, here⟩ := ok_of_bind here
    obtain ⟨⟨x, _⟩, found, here⟩ := ok_of_bind here
    cases here
    exact skipsMember_of_colon (inner _ deeper) separated found

theorem skippable_read (depth : Nat) : Skippable (Json.read depth) := by
  induction depth with
  | zero =>
    intro bytes rest j read frames
    exact skips_of_begins rfl (Json.begins_of_read read) nofun
  | succ depth ih =>
    intro bytes rest j read frames
    exact skips_of_begins rfl (Json.begins_of_read read) fun d same => Nat.succ.inj same ▸ ih

end Skip

theorem Json.skip_of_skips {bytes rest : Bytes} (skips : Skip.Skips [] bytes rest) :
    Json.skip bytes = .ok ((), rest) := by
  obtain ⟨count, shorter, steps⟩ := skips
  have ran := steps (colon :: bytes) (by rw [List.length_cons]; omega)
  rw [Skip.run_ended] at ran
  simp only [Json.skip, ran]
  rfl

/-- A value that can be read is skipped to where reading it stops. -/
theorem Json.skip_of_read {depth : Nat} {bytes rest : Bytes} {j : Json}
    (read : Json.read depth bytes = .ok (j, rest)) : Json.skip bytes = .ok ((), rest) :=
  skip_of_skips (Skip.skippable_read depth read [])

end AdmissionGuest
