import AdmissionGuest.Proofs.Json.Spelling.Skip
/-!
A reader is uniform if it makes the same of a spelled document wherever that stands. Then what it
makes of a list or an object is what it makes of the parts, one after the other.
-/

namespace AdmissionGuest

open Ascii Scan

section

variable {α : Type}

/-- What a reader makes of a spelled document by itself. -/
def Reader.on (reader : Reader α) (d : Spelling) : Except Cause α :=
  match reader d.bytes with
  | .ok (a, _) => .ok a
  | .error fault => .error fault.cause

/-- Wherever a spelled document stands, a reader finds this and stops after the document, or fails
if this is a failure. -/
def Reader.Finds (reader : Reader α) (d : Spelling) (view : Except Cause α) : Prop :=
  ∀ (bs : List Spelling.Blank) (rest : Bytes), Stops rest →
    Follows (reader (Spelling.blanks bs ++ (d.bytes ++ rest))) view rest

/-- A reader that makes the same of a spelled document wherever that stands. -/
def Reader.Uniform (reader : Reader α) : Prop := ∀ d : Spelling, reader.Finds d (reader.on d)

variable {reader : Reader α} {d : Spelling} {view : Except Cause α}
  {read : Except Fault (α × Bytes)} {rest : Bytes}

theorem Follows.congr (follows : Follows read view rest) {view' : Except Cause α}
    (same : view.toOption = view'.toOption) : Follows read view' rest := by
  rw [Follows, ← same]
  exact follows

theorem Follows.alone (follows : Follows (reader d.bytes) view []) :
    view.toOption = (reader.on d).toOption := by
  unfold Reader.on
  cases read : reader d.bytes with
  | error fault =>
    rw [read] at follows
    cases view with
    | error cause => rfl
    | ok a => exact nomatch follows
  | ok found =>
    obtain ⟨a, left⟩ := found
    obtain ⟨rfl, _⟩ := follows.ok_iff.mp read
    rfl

theorem Reader.Finds.alone (finds : reader.Finds d view) :
    view.toOption = (reader.on d).toOption := by
  have alone := finds [] [] .nil
  rw [List.append_nil] at alone
  exact Follows.alone alone

theorem Reader.on_ok_iff {a : α} :
    reader.on d = .ok a ↔ ∃ left, reader d.bytes = .ok (a, left) := by
  unfold on
  cases read : reader d.bytes with
  | error fault => exact ⟨nofun, nofun⟩
  | ok found =>
    obtain ⟨b, left⟩ := found
    constructor
    · rintro ⟨⟩
      exact ⟨left, rfl⟩
    · rintro ⟨_, ⟨⟩⟩
      rfl

theorem Reader.Finds.ok_iff (finds : reader.Finds d view) {a : α} :
    reader.on d = .ok a ↔ view = .ok a := by
  have alone := finds [] [] .nil
  rw [List.append_nil] at alone
  change Follows (reader d.bytes) view [] at alone
  rw [on_ok_iff]
  constructor
  · rintro ⟨left, read⟩
    exact (alone.ok_iff.mp read).1
  · intro found
    exact ⟨[], alone.ok_iff.mpr ⟨found, rfl⟩⟩

theorem Reader.Finds.on (finds : reader.Finds d view) : reader.Finds d (reader.on d) :=
  fun bs rest stops => (finds bs rest stops).congr finds.alone

/-- It is enough to know which values are found. -/
theorem Reader.finds_of_iff {P : α → Prop}
    (found : ∀ bs rest, Stops rest → ∀ a left,
      reader (Spelling.blanks bs ++ (d.bytes ++ rest)) = .ok (a, left) ↔ P a ∧ left = rest) :
    reader.Finds d (reader.on d) ∧ ∀ a, reader.on d = .ok a ↔ P a := by
  have alone (a : α) : reader.on d = .ok a ↔ P a := by
    have same := found [] [] .nil a
    rw [List.append_nil] at same
    rw [on_ok_iff]
    constructor
    · rintro ⟨left, read⟩
      exact ((same left).mp read).1
    · intro holds
      exact ⟨[], (same []).mpr ⟨holds, rfl⟩⟩
  refine ⟨fun bs rest stops => ?_, alone⟩
  cases here : reader.on d with
  | ok a =>
    rw [(found bs rest stops a rest).mpr ⟨(alone a).mp here, rfl⟩]
    exact .done
  | error cause =>
    cases read : reader (Spelling.blanks bs ++ (d.bytes ++ rest)) with
    | error fault => exact .failed
    | ok pair =>
      have holds := (alone pair.1).mpr ((found bs rest stops pair.1 pair.2).mp read).1
      rw [here] at holds
      exact nomatch holds

theorem Reader.uniform_of_finds (finds : ∀ d, ∃ view, reader.Finds d view) : reader.Uniform := by
  intro d
  obtain ⟨view, found⟩ := finds d
  exact found.on

theorem Reader.Uniform.map (uniform : reader.Uniform) {β : Type} (f : α → β) :
    Reader.Uniform (f <$> reader : Reader β) :=
  Reader.uniform_of_finds fun d => ⟨f <$> reader.on d, fun bs rest stops =>
    (uniform d bs rest stops).map f⟩

end

namespace Spelling

variable {α σ : Type} {rest : Bytes}

/-! Lists -/

section Lists

variable {item : Reader α} (uniform : item.Uniform)

include uniform

theorem items_follow (xs : List (Item Spelling)) (first : Bool) (bs : List Blank) (rest : Bytes)
    {bound : Bytes} (enough : xs.length < bound.length) :
    Follows (items item bound first (blanks bs ++ (itemBytes first xs ++ closeList :: rest)))
      (xs.mapM fun x => item.on x.value) (closeList :: rest) := by
  induction xs generalizing first bs bound with
  | nil =>
    cases bound with
    | nil => contradiction
    | cons _ bound =>
      change Follows (items item _ first (blanks bs ++ closeList :: rest)) _ _
      simp only [items, nextItem_close, bind, Except.bind]
      exact .done
  | cons x xs ih =>
    cases bound with
    | nil => contradiction
    | cons _ bound =>
      have here := uniform x.value [] _ (stops_items xs x.after rest)
      simp only [items, nextItem_item, bind, Except.bind]
      rw [List.mapM_cons]
      exact here.bind fun a _ =>
        (ih false x.after (Nat.lt_of_succ_lt_succ enough)).bind fun as _ => .done

theorem listBody_follows (xs : List (Item Spelling)) (bs : List Blank) (rest : Bytes) :
    Follows (listBody item (blanks bs ++ (itemBytes true xs ++ closeList :: rest)))
      (xs.mapM fun x => item.on x.value) rest := by
  have enough : xs.length <
      (openList :: (blanks bs ++ (itemBytes true xs ++ closeList :: rest))).length := by
    have one := length_itemBytes true xs
    simp only [List.length_append, List.length_cons]
    omega
  have body := items_follow uniform xs true bs rest enough
  rw [← bind_pure (xs.mapM _)]
  exact body.bind fun as _ => .done

end Lists

/-! Objects -/

section Objects

variable {member : String → σ → Reader σ} {step : String → Spelling → σ → Except Cause σ}

/-- Wherever the colon and the value of a spelled member stand, what is done with the member follows
a step on it. -/
def FollowsMembers (member : String → σ → Reader σ)
    (step : String → Spelling → σ → Except Cause σ) : Prop :=
  ∀ (name : String) (s : σ) (before after : List Blank) (d : Spelling) (rest : Bytes), Stops rest →
    Follows (member name s (blanks before ++ colon :: (blanks after ++ (d.bytes ++ rest))))
      (step name d s) rest

theorem member_follows {reader : Reader α} (uniform : reader.Uniform) (f : α → σ)
    (before after : List Blank) (d : Spelling) (stops : Stops rest) :
    Follows ((do
        memberColon
        return f (← reader) : Reader σ)
      (blanks before ++ colon :: (blanks after ++ (d.bytes ++ rest))))
      (f <$> reader.on d) rest := by
  change Follows (memberColon _ >>= _) _ rest
  rw [memberColon_blanks]
  exact (uniform d after rest stops).map f

/-- A step on a member whose name may not stand for a text. -/
def stepOver (step : String → Spelling → σ → Except Cause σ) (s : σ) (m : Member Spelling) :
    Except Cause σ := do
  step (← textOf m.name) m.value s

theorem members_follow (each : FollowsMembers member step) (ms : List (Member Spelling))
    (first : Bool) (s : σ) (bs : List Blank) (rest : Bytes) {bound : Bytes}
    (enough : ms.length < bound.length) :
    Follows (members member bound first s
        (blanks bs ++ (memberBytes first ms ++ closeObject :: rest)))
      (ms.foldlM (stepOver step) s) (closeObject :: rest) := by
  induction ms generalizing first s bs bound with
  | nil =>
    cases bound with
    | nil => contradiction
    | cons _ bound =>
      change Follows (members member _ first s (blanks bs ++ closeObject :: rest)) _ _
      simp only [members, nextName_close, bind, Except.bind]
      exact .done
  | cons m ms ih =>
    cases bound with
    | nil => contradiction
    | cons _ bound =>
      have moved := nextName_follows first m ms bs (closeObject :: rest)
      have stops := stops_members ms m.after rest
      have later (t : σ) := ih false t m.after (Nat.lt_of_succ_lt_succ enough)
      simp only [members, List.foldlM_cons, stepOver, bind_assoc]
      have next (name : String) : Follows
          (member name s (afterName m ms (closeObject :: rest)) >>= fun r =>
            members member bound false r.1 r.2)
          (step name m.value s >>= fun t => ms.foldlM (stepOver step) t) (closeObject :: rest) :=
        (each name s m.beforeColon m.afterColon m.value _ stops).bind fun t _ => later t
      cases named : textOf m.name with
      | error cause =>
        rw [named] at moved
        exact moved.stuck
      | ok name =>
        rw [named] at moved
        have found := moved.ok_iff.mpr ⟨rfl, rfl⟩
        simp only [found, bind, Except.bind]
        exact next name

theorem objectBody_follows (each : FollowsMembers member step) (ms : List (Member Spelling)) (s : σ)
    (bs : List Blank) (rest : Bytes) :
    Follows (objectBody member s (blanks bs ++ (memberBytes true ms ++ closeObject :: rest)))
      (ms.foldlM (stepOver step) s) rest := by
  have enough : ms.length <
      (openObject :: (blanks bs ++ (memberBytes true ms ++ closeObject :: rest))).length := by
    have one := length_memberBytes true ms
    simp only [List.length_append, List.length_cons]
    omega
  have body := members_follow each ms true s bs rest enough
  rw [← bind_pure (ms.foldlM _ _)]
  exact body.bind fun t _ => .done

end Objects

/-! Documents of any kind -/

/-- The number that a numeral stands for. -/
def numberOf (n : Numeral) : Except Cause Number := Reader.on Scan.number (.number n)

theorem number_follows (n : Numeral) (stops : Stops rest) :
    Follows (Scan.number (n.bytes ++ rest)) (numberOf n) rest := by
  obtain ⟨result, reads⟩ := number_alike n
  have alone := reads [] .nil
  rw [List.append_nil] at alone
  exact (reads rest stops).congr (Follows.alone (d := .number n) alone)

/-- Puts a member before those that came earlier. -/
def keepOver (reader : Reader Json) (name : String) (d : Spelling)
    (before : List (String × Json)) : Except Cause (List (String × Json)) :=
  (fun x => (name, x) :: before) <$> reader.on d

/-- What a spelled document is read as, if `inner` reads its parts. -/
def onValue (inner : Option (Reader Json)) : Spelling → Except Cause Json
  | .null => .ok .null
  | .flag b => .ok (.flag b)
  | .number n => .number <$> numberOf n
  | .text ms => .text <$> textOf ms
  | .list _ xs =>
    match inner with
    | none => .error .tooDeep
    | some reader => .list <$> xs.mapM fun x => reader.on x.value
  | .object _ ms =>
    match inner with
    | none => .error .tooDeep
    | some reader => (fun ms => .object ms.reverse) <$> ms.foldlM (stepOver (keepOver reader)) []

theorem readValue_finds {inner : Option (Reader Json)}
    (uniform : ∀ reader, inner = some reader → reader.Uniform) (d : Spelling) :
    (Json.readValue inner).Finds d (onValue inner d) := by
  have visible (bs : List Blank) (rest : Bytes) :
      Json.readValue inner (blanks bs ++ (d.bytes ++ rest)) =
        Json.readValue inner (d.bytes ++ rest) := by
    have same := skipBlanks_bytes [] d rest
    simp only [Json.readValue, skipBlanks_bytes]
    rw [show skipBlanks (d.bytes ++ rest) = d.bytes ++ rest from same]
  intro bs rest stops
  rw [visible]
  cases d with
  | null => exact .done
  | flag b => cases b <;> exact .done
  | number n =>
    obtain ⟨b, tail, written, leads⟩ := n.leads
    have numeral := number_follows n stops
    change Follows (Json.readValue inner (n.bytes ++ rest)) _ rest
    rw [written, List.cons_append] at numeral ⊢
    rw [Json.readValue_number inner leads]
    exact numeral.map Json.number
  | text ms =>
    have start := begins (.text ms) rest
    generalize (Spelling.text ms).bytes ++ rest = shown at start
    cases start with
    | text => exact (text_follows ms rest).map Json.text
  | list inside xs =>
    cases inner with
    | none => exact .failed
    | some reader =>
      have start := begins (.list inside xs) rest
      generalize (Spelling.list inside xs).bytes ++ rest = shown at start
      cases start with
      | list => exact (listBody_follows (uniform reader rfl) xs inside rest).map Json.list
  | object inside ms =>
    cases inner with
    | none => exact .failed
    | some reader =>
      have each : FollowsMembers (Json.keepMember reader) (keepOver reader) :=
        fun name before bs bs' d rest stops =>
          member_follows (uniform reader rfl) (fun x => (name, x) :: before) bs bs' d stops
      have start := begins (.object inside ms) rest
      generalize (Spelling.object inside ms).bytes ++ rest = shown at start
      cases start with
      | object =>
        exact (objectBody_follows each ms [] inside rest).map fun ms => Json.object ms.reverse

/-- The reader of the parts of a document, if these may be nested. -/
def innerReader : Nat → Option (Reader Json)
  | 0 => none
  | depth + 1 => some (Json.read depth)

theorem read_finds (depth : Nat) (d : Spelling) :
    (Json.read depth).Finds d (onValue (innerReader depth) d) := by
  induction depth generalizing d with
  | zero =>
    have inner : ∀ reader, innerReader 0 = some reader → reader.Uniform := by rintro _ ⟨⟩
    exact readValue_finds inner d
  | succ depth ih =>
    have inner : ∀ reader, innerReader (depth + 1) = some reader → reader.Uniform := by
      rintro _ ⟨⟩
      exact fun d => (ih d).on
    exact readValue_finds inner d

theorem read_uniform (depth : Nat) : (Json.read depth).Uniform :=
  fun d => (read_finds depth d).on

end Spelling

end AdmissionGuest
