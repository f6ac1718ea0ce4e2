import Mathlib.Data.List.Forall2
import Mathlib.Data.List.TakeWhile
import AdmissionGuest.Text.Blank
/-!
What trimming and lower case leave of a text. Trimming takes off the blanks at both ends and nothing
else. Two texts have the same lower-case form exactly if they agree up to the case of ASCII letters,
and the case of a letter decides neither what is blank nor what is a digit.
-/

namespace AdmissionGuest.Text

/-- The characters of a text with blanks in front of it and after it. -/
def Padded (core raw : List Char) : Prop :=
  ∃ front back, (∀ c ∈ front, isBlank c = true) ∧ (∀ c ∈ back, isBlank c = true) ∧
    raw = front ++ core ++ back

theorem toList_trim (text : String) : (trim text).toList = trimBlanks text.toList :=
  String.toList_ofList

theorem trimBlanks_of_padded {core raw : List Char} (padded : Padded core raw) :
    trimBlanks raw = trimBlanks core := by
  obtain ⟨front, back, before, after, rfl⟩ := padded
  have before' : ∀ c ∈ back.reverse, isBlank c = true := fun c mem =>
    after c (List.mem_reverse.mp mem)
  rw [trimBlanks, List.append_assoc, List.dropWhile_append_of_pos before, List.dropWhile_append]
  split
  next empty =>
    rw [List.dropWhile_eq_nil_iff.mpr after, trimBlanks, List.isEmpty_iff.mp empty]
  next =>
    rw [List.reverse_append, List.dropWhile_append_of_pos before', trimBlanks]

theorem padded_trimBlanks (raw : List Char) : Padded (trimBlanks raw) raw := by
  let back := ((raw.dropWhile isBlank).reverse.takeWhile isBlank).reverse
  have rest : raw.dropWhile isBlank = trimBlanks raw ++ back := by
    rw [trimBlanks, ← List.reverse_append, List.takeWhile_append_dropWhile, List.reverse_reverse]
  refine ⟨raw.takeWhile isBlank, back, ?_, ?_, ?_⟩
  · intro c mem
    exact List.mem_takeWhile_imp mem
  · intro c mem
    exact List.mem_takeWhile_imp (List.mem_reverse.mp mem)
  · rw [List.append_assoc, ← rest, List.takeWhile_append_dropWhile]

/-- A text without blanks is not trimmed. -/
theorem trimBlanks_of_visible {cs : List Char} (visible : ∀ c ∈ cs, isBlank c = false) :
    trimBlanks cs = cs := by
  have kept {cs : List Char} (visible : ∀ c ∈ cs, isBlank c = false) :
      cs.dropWhile isBlank = cs := by
    cases cs with
    | nil => rfl
    | cons c cs => rw [List.dropWhile_cons, visible c List.mem_cons_self, if_neg Bool.false_ne_true]
  rw [trimBlanks, kept visible, kept (fun c mem => visible c (List.mem_reverse.mp mem)),
    List.reverse_reverse]

/-! Case -/

/-- The same letter, in either case. -/
def SameLetter (c d : Char) : Prop :=
  c = d ∨ c = d.toLower ∨ c = d.toUpper

/-- The same text, up to the case of its letters. -/
def SameLetters : List Char → List Char → Prop :=
  List.Forall₂ SameLetter

theorem toLower_of_not_ascii {c : Char} (other : 0x80 ≤ c.toNat) : c.toLower = c := by
  have no_capital : ¬ (c.val ≥ 'A'.val ∧ c.val ≤ 'Z'.val) := by
    rintro ⟨-, below⟩
    exact absurd (UInt32.le_iff_toNat_le.mp below) (by change ¬ c.toNat ≤ 0x5A; omega)
  exact dif_neg no_capital

theorem toUpper_of_not_ascii {c : Char} (other : 0x80 ≤ c.toNat) : c.toUpper = c := by
  have no_small : ¬ ('a'.val ≤ c.val ∧ c.val ≤ 'z'.val) := by
    rintro ⟨-, below⟩
    exact absurd (UInt32.le_iff_toNat_le.mp below) (by change ¬ c.toNat ≤ 0x7A; omega)
  exact dif_neg no_small

/-- Characters of ASCII are checked one by one; no other has a case. -/
theorem forall_char (P : Char → Prop) (ascii : ∀ n < 0x80, P (Char.ofNat n))
    (others : ∀ c : Char, c.toLower = c → c.toUpper = c → 0x80 ≤ c.toNat → P c) (c : Char) :
    P c := by
  by_cases small : c.toNat < 0x80
  · have checked := ascii _ small
    rwa [Char.ofNat_toNat] at checked
  · have other : 0x80 ≤ c.toNat := Nat.le_of_not_lt small
    exact others c (toLower_of_not_ascii other) (toUpper_of_not_ascii other) other

/-- The two cases of a letter, from each other. -/
theorem case_of_case (c : Char) :
    c.toLower.toLower = c.toLower ∧ c.toUpper.toLower = c.toLower ∧
      c.toLower.toUpper = c.toUpper ∧ (c = c.toLower ∨ c = c.toUpper) := by
  refine forall_char (fun c => c.toLower.toLower = c.toLower ∧ c.toUpper.toLower = c.toLower ∧
    c.toLower.toUpper = c.toUpper ∧ (c = c.toLower ∨ c = c.toUpper)) (by decide) ?_ c
  intro c lower upper _
  simp [lower, upper]

theorem sameLetter_iff {c d : Char} : SameLetter c d ↔ c.toLower = d.toLower := by
  obtain ⟨lower, upper, -, -⟩ := case_of_case d
  constructor
  · rintro (rfl | rfl | rfl)
    · rfl
    · exact lower
    · exact upper
  · intro same
    obtain ⟨-, -, upper', either⟩ := case_of_case c
    obtain ⟨-, -, upper, -⟩ := case_of_case d
    rcases either with low | high
    · exact .inr (.inl (low.trans same))
    · exact .inr (.inr (high.trans (by rw [← upper', same, upper])))

theorem sameLetters_iff {cs ds : List Char} :
    SameLetters cs ds ↔ cs.map Char.toLower = ds.map Char.toLower := by
  rw [← List.forall₂_eq_eq_eq, List.forall₂_map_left_iff, List.forall₂_map_right_iff]
  exact ⟨fun same => same.imp fun _ _ => sameLetter_iff.mp,
    fun same => same.imp fun _ _ => sameLetter_iff.mpr⟩

theorem SameLetters.symm {cs ds : List Char} (same : SameLetters cs ds) : SameLetters ds cs :=
  sameLetters_iff.mpr (sameLetters_iff.mp same).symm

/-- Only a letter has another case. -/
theorem SameLetters.eq_of_caseless {cs ds : List Char} (same : SameLetters cs ds)
    (caseless : ∀ d ∈ ds, d.toLower = d ∧ d.toUpper = d) : cs = ds := by
  induction same with
  | nil => rfl
  | @cons c d cs ds letter _ ih =>
    obtain ⟨lower, upper⟩ := caseless d List.mem_cons_self
    rw [SameLetter, lower, upper, or_self, or_self] at letter
    rw [letter, ih fun d mem => caseless d (List.mem_cons_of_mem _ mem)]

theorem asciiLower_inj {text other : String} :
    asciiLower text = asciiLower other ↔ SameLetters text.toList other.toList := by
  rw [sameLetters_iff, asciiLower, asciiLower, String.ofList_inj]

theorem sameLetters_asciiLower (text : String) :
    SameLetters text.toList (asciiLower text).toList := by
  rw [sameLetters_iff, asciiLower, String.toList_ofList, List.map_map]
  exact List.map_congr_left fun c _ => (case_of_case c).1.symm

theorem isBlank_toLower (c : Char) : isBlank c.toLower = isBlank c := by
  refine forall_char (fun c => isBlank c.toLower = isBlank c) (by decide) ?_ c
  intro c lower _ _
  rw [lower]

theorem trimBlanks_map_toLower (cs : List Char) :
    trimBlanks (cs.map Char.toLower) = (trimBlanks cs).map Char.toLower := by
  have same : isBlank ∘ Char.toLower = isBlank := funext isBlank_toLower
  simp only [trimBlanks, List.dropWhile_map, ← List.map_reverse, same]

/-- The characters of a text after blanks were added around it and letters changed their case. -/
def Restyled (raw raw' : String) : Prop :=
  ∃ core, Padded core raw'.toList ∧ SameLetters core raw.toList

/-- Trimmed and in lower case, a restyled text is what it was. -/
theorem Restyled.asciiLower_trim {raw raw' : String} (restyled : Restyled raw raw') :
    asciiLower (trim raw') = asciiLower (trim raw) := by
  obtain ⟨core, padded, same⟩ := restyled
  rw [sameLetters_iff] at same
  simp only [asciiLower, toList_trim, trimBlanks_of_padded padded]
  rw [← trimBlanks_map_toLower, same, trimBlanks_map_toLower]

end AdmissionGuest.Text
