import Mathlib.Data.List.Induction
import AdmissionGuest.Log.Level
import AdmissionGuest.Proofs.Json.Numeral
import AdmissionGuest.Proofs.Text.Blank
/-!
How a level is spelled: by its number, in decimal, with or without a plus and with any number of
zeros in front, or by its name, in any case. Nothing else is a level, and no text spells two of them.
-/

namespace AdmissionGuest.Level

open Text

def digit : Level → Char
  | error => '1'
  | warn => '2'
  | info => '3'
  | debug => '4'
  | trace => '5'

/-- The texts that name or number a level. -/
inductive Spells (level : Level) : List Char → Prop where
  | numeral {sign : List Char} (signed : sign = [] ∨ sign = ['+']) (zeros : Nat) :
      Spells level (sign ++ (List.replicate zeros '0' ++ [level.digit]))
  | name {cs : List Char} (same : SameLetters cs level.name.toList) : Spells level cs

/-! Numerals -/

/-- The value of decimal digits. -/
def value (digits : List Char) : Nat :=
  digits.foldl (fun n c => n * 10 + (c.toNat - '0'.toNat)) 0

theorem value_append (digits : List Char) (d : Char) :
    value (digits ++ [d]) = value digits * 10 + (d.toNat - 0x30) := by
  rw [value, List.foldl_append]
  rfl

theorem value_eq_zero_iff {digits : List Char} (decimal : ∀ d ∈ digits, d.isDigit = true) :
    value digits = 0 ↔ ∃ zeros, digits = List.replicate zeros '0' := by
  constructor
  · intro zero
    induction digits using List.reverseRecOn with
    | nil => exact ⟨0, rfl⟩
    | append_singleton digits d ih =>
      have here := Scan.toNat_of_isDigit (decimal d (List.mem_append_right _ List.mem_cons_self))
      rw [value_append] at zero
      have last : d = '0' := Char.toNat_inj.mp (show d.toNat = 0x30 by omega)
      obtain ⟨zeros, rfl⟩ := ih (fun d mem => decimal d (List.mem_append_left _ mem)) (by omega)
      exact ⟨zeros + 1, by rw [List.replicate_succ', last]⟩
  · rintro ⟨zeros, rfl⟩
    clear decimal
    induction zeros with
    | zero => rfl
    | succ zeros ih => rw [List.replicate_succ', value_append, ih]; rfl

/-- Only zeros stand in front of a number of one digit. -/
theorem value_eq_rank_iff {digits : List Char} (decimal : ∀ d ∈ digits, d.isDigit = true)
    (level : Level) :
    value digits = level.rank ↔ ∃ zeros, digits = List.replicate zeros '0' ++ [level.digit] := by
  have rank : 0 < level.rank ∧ level.rank < 10 := by cases level <;> decide
  have single : level.digit.toNat = level.rank + 0x30 := by cases level <;> rfl
  constructor
  · intro same
    rcases List.eq_nil_or_concat digits with rfl | ⟨front, d, rfl⟩
    · exact absurd same.symm rank.1.ne'
    · rw [List.concat_eq_append] at *
      have here := Scan.toNat_of_isDigit (decimal d (List.mem_append_right _ List.mem_cons_self))
      rw [value_append] at same
      obtain ⟨zeros, rfl⟩ := (value_eq_zero_iff fun d mem =>
        decimal d (List.mem_append_left _ mem)).mp (show value front = 0 by omega)
      have last : d = level.digit := Char.toNat_inj.mp (by omega)
      exact ⟨zeros, by rw [last]⟩
  · rintro ⟨zeros, rfl⟩
    have zero := (value_eq_zero_iff fun d mem =>
      decimal d (List.mem_append_left _ mem)).mpr ⟨zeros, rfl⟩
    rw [value_append, zero]
    omega

theorem numeral?_eq_some_iff {text : String} {n : Nat} :
    numeral? text = some n ↔ ∃ sign digits, (sign = [] ∨ sign = ['+']) ∧
      text.toList = sign ++ digits ∧ digits ≠ [] ∧ (∀ d ∈ digits, d.isDigit = true) ∧
      value digits = n := by
  have counted (digits : List Char) :
      (if digits ≠ [] ∧ digits.all Char.isDigit then some (value digits) else none) = some n ↔
        digits ≠ [] ∧ (∀ d ∈ digits, d.isDigit = true) ∧ value digits = n := by
    rw [Option.ite_none_right_eq_some, List.all_eq_true, Option.some.injEq, and_assoc]
  rw [numeral?]
  split
  next rest plus =>
    refine (counted rest).trans ⟨fun spelled => ⟨['+'], rest, .inr rfl, plus, spelled⟩, ?_⟩
    rintro ⟨sign, digits, rfl | rfl, same, spelled⟩
    · -- a plus is not a digit
      have digit := spelled.2.1 '+' (by rw [← List.nil_append digits, ← same, plus]; simp)
      exact absurd digit (by decide)
    · rw [plus] at same
      obtain rfl := List.cons.inj same |>.2
      exact spelled
  next cs unsigned =>
    refine (counted _).trans ⟨fun spelled => ⟨[], _, .inl rfl, rfl, spelled⟩, ?_⟩
    rintro ⟨sign, digits, rfl | rfl, same, spelled⟩
    · rw [same]
      exact spelled
    · exact absurd same (unsigned digits)

theorem numeral?_eq_rank_iff {text : String} {level : Level} :
    numeral? text = some level.rank ↔ ∃ sign zeros, (sign = [] ∨ sign = ['+']) ∧
      text.toList = sign ++ (List.replicate zeros '0' ++ [level.digit]) := by
  rw [numeral?_eq_some_iff]
  constructor
  · rintro ⟨sign, digits, signed, same, -, decimal, counted⟩
    obtain ⟨zeros, rfl⟩ := (value_eq_rank_iff decimal level).mp counted
    exact ⟨sign, zeros, signed, same⟩
  · rintro ⟨sign, zeros, signed, same⟩
    have decimal : ∀ d ∈ List.replicate zeros '0' ++ [level.digit], d.isDigit = true := by
      intro d mem
      rcases List.mem_append.mp mem with zero | last
      · rw [List.eq_of_mem_replicate zero]
        rfl
      · rw [List.mem_singleton.mp last]
        cases level <;> rfl
    exact ⟨sign, _, signed, same, by simp, decimal, (value_eq_rank_iff decimal level).mpr ⟨zeros, rfl⟩⟩

/-! What a spelling shows of its level -/

namespace Spells

/-- The last letter of the name. -/
def ending : Level → Char
  | error => 'r'
  | warn => 'n'
  | info => 'o'
  | debug => 'g'
  | trace => 'e'

variable {level level' : Level} {cs ds : List Char}

theorem getLast? (spells : Spells level cs) :
    (cs.map Char.toLower).getLast? = some level.digit ∨
      (cs.map Char.toLower).getLast? = some (ending level) := by
  cases spells with
  | numeral signed zeros =>
    left
    rw [← List.append_assoc, List.map_append, List.getLast?_append]
    cases level <;> rfl
  | name same =>
    right
    rw [sameLetters_iff.mp same]
    cases level <;> rfl

/-- No text spells two levels: its last character tells them apart. -/
theorem unique (spells : Spells level cs) (spells' : Spells level' cs) : level = level' := by
  have apart : ∀ level level', (digit level = digit level' ∨ digit level = ending level' ∨
      ending level = digit level' ∨ ending level = ending level') → level = level' := by
    intro level level'
    cases level <;> cases level' <;> decide
  apply apart
  rcases spells.getLast? with last | last <;> rcases spells'.getLast? with last' | last'
  · exact .inl (Option.some.inj (last.symm.trans last'))
  · exact .inr (.inl (Option.some.inj (last.symm.trans last')))
  · exact .inr (.inr (.inl (Option.some.inj (last.symm.trans last'))))
  · exact .inr (.inr (.inr (Option.some.inj (last.symm.trans last'))))

/-- The characters of a numeral are not blank, and have no case. -/
theorem numeral_plain {sign : List Char} (signed : sign = [] ∨ sign = ['+']) (zeros : Nat) :
    ∀ c ∈ sign ++ (List.replicate zeros '0' ++ [level.digit]),
      isBlank c = false ∧ c.toLower = c ∧ c.toUpper = c := by
  intro c mem
  rcases List.mem_append.mp mem with sign | digits
  · rcases signed with rfl | rfl
    · cases sign
    · rw [List.mem_singleton.mp sign]
      decide
  · rcases List.mem_append.mp digits with zero | last
    · rw [List.eq_of_mem_replicate zero]
      decide
    · rw [List.mem_singleton.mp last]
      cases level <;> decide

theorem visible (spells : Spells level cs) : ∀ c ∈ cs, isBlank c = false := by
  intro c mem
  cases spells with
  | numeral signed zeros => exact (numeral_plain signed zeros c mem).1
  | name same =>
    have lower : c.toLower ∈ level.name.toList.map Char.toLower :=
      sameLetters_iff.mp same ▸ List.mem_map_of_mem mem
    have plain : (level.name.toList.map Char.toLower).any isBlank = false := by
      cases level <;> rfl
    rw [← isBlank_toLower]
    exact Bool.eq_false_iff.mpr (List.any_eq_false.mp plain _ lower)

/-- The case of letters does not matter: a numeral has none. -/
theorem restyle (spells : Spells level cs) (same : SameLetters ds cs) : Spells level ds := by
  cases spells with
  | numeral signed zeros =>
    rw [same.eq_of_caseless fun c mem => (numeral_plain signed zeros c mem).2]
    exact .numeral signed zeros
  | name named => exact .name (sameLetters_iff.mpr
      ((sameLetters_iff.mp same).trans (sameLetters_iff.mp named)))

end Spells

/-- What is looked for in the list of the levels. -/
def taken (text : String) (level : Level) : Bool :=
  numeral? text == some level.rank || asciiLower text == asciiLower level.name

theorem taken_iff {text : String} {level : Level} :
    taken text level = true ↔ Spells level text.toList := by
  rw [taken, Bool.or_eq_true, beq_iff_eq, beq_iff_eq, numeral?_eq_rank_iff, asciiLower_inj]
  constructor
  · rintro (⟨sign, zeros, signed, same⟩ | same)
    · rw [same]
      exact .numeral signed zeros
    · exact .name same
  · intro spells
    generalize text.toList = cs at spells ⊢
    cases spells with
    | numeral signed zeros => exact .inl ⟨_, zeros, signed, rfl⟩
    | name same => exact .inr same

/-- A text is taken for a level exactly if it spells it. -/
theorem ofText?_eq_some_iff {text : String} {level : Level} :
    ofText? text = some level ↔ Spells level text.toList := by
  change all.find? (taken text) = some level ↔ _
  constructor
  · intro found
    exact taken_iff.mp (List.find?_some found)
  · intro spells
    cases found : all.find? (taken text) with
    | none =>
      have there : level ∈ all := by cases level <;> decide
      exact absurd (taken_iff.mpr spells) (List.find?_eq_none.mp found level there)
    | some other => rw [(taken_iff.mp (List.find?_some found)).unique spells]

end AdmissionGuest.Level
