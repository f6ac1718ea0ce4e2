import AdmissionGuest.Proofs.Json.Spelling.Integer
import AdmissionGuest.Proofs.Shape.Place
import AdmissionGuest.Proofs.Shape.Tidy
/-!
Integers in documents of a shape. What is made of a document has at the place of an integer the one
that stands there, and nothing is made of it if the integer does not fit; whether the document is
read or is viewed after it was kept.
-/

namespace AdmissionGuest

open Spelling

namespace Width

variable {width : Width} {n : Int}

/-- Whether an integer lies between the limits of a width. -/
def Fits (width : Width) (n : Int) : Prop := width.least ≤ n ∧ n ≤ width.greatest

instance : Decidable (width.Fits n) := inferInstanceAs (Decidable (_ ∧ _))

theorem exists_toInt_iff : (∃ w, width.toInt w = n) ↔ width.Fits n := by
  constructor
  · rintro ⟨w, rfl⟩
    have fits := ofInt?_toInt width w
    unfold ofInt? at fits
    split at fits
    next within => exact within
    next => exact nomatch fits
  · intro within
    exact ⟨width.wrap n, toInt_of_ofInt? (if_pos within)⟩

theorem whole_of_fits (fits : width.Fits n) : (Number.int n).Whole := by
  obtain ⟨least, greatest⟩ := fits
  cases width <;> exact ⟨by simp only [Width.least] at least; omega,
    by simp only [Width.greatest] at greatest; omega⟩

end Width

namespace Shape

variable {width : Width} {numeral : Numeral} {n : Int} (writes : numeral.Writes n)

include writes

/-- Of the number that a numeral is read as, the integer is taken that the numeral writes. -/
theorem intOf_iff {x : Number} (read : numberOf numeral = .ok x) {w : width.Val} :
    intOf width x = .ok w ↔ width.toInt w = n := by
  constructor
  · intro taken
    cases x with
    | int m =>
      have same := numberOf_int writes read
      simp only [intOf] at taken
      split at taken
      next v fits =>
        cases taken
        exact (Width.toInt_of_ofInt? fits).trans same
      next => cases taken
    | double d => cases taken
  · rintro rfl
    have fits : width.Fits (width.toInt w) := Width.exists_toInt_iff.mp ⟨w, rfl⟩
    cases (numberOf_of_whole writes (Width.whole_of_fits fits)).symm.trans read
    exact Width.intOf_toInt width w

theorem read_int_iff {depth : Nat} {w : width.Val} :
    ((int width).read depth).on (.number numeral) = .ok w ↔ width.toInt w = n := by
  refine (readInt_finds width (.number numeral)).ok_iff.trans ?_
  change (numberOf numeral >>= intOf width) = .ok w ↔ _
  cases read : numberOf numeral with
  | ok x => exact intOf_iff writes read
  | error cause =>
    refine ⟨nofun, ?_⟩
    rintro rfl
    have fits : width.Fits (width.toInt w) := Width.exists_toInt_iff.mp ⟨w, rfl⟩
    exact nomatch (numberOf_of_whole writes (Width.whole_of_fits fits)).symm.trans read

/-- A numeral that does not fit is viewed as no integer. -/
theorem view_int_iff (kept : Kept) {x : Number} (read : numberOf numeral = .ok x)
    {w : width.Val} : (int width).view kept (.number x) = .ok w ↔ width.toInt w = n :=
  intOf_iff writes read

omit writes

section Parts

variable {ι D : Type} {maker : Maker ι D} {s : Shape} {i : ι} {whole : D → D} {path : List Step}
  (opens : Opens maker s i whole path (.int width)) {d : D} (there : d ≠ maker.absent)
  (takes : ∀ i (w : width.Val), maker.make i (.int width) d = .ok w ↔ width.toInt w = n)

include opens there takes

/-- The integer that is taken fits, and is the one that is written there again. -/
theorem Opens.integer {v : s.Val} (made : maker.make i s (whole d) = .ok v) :
    width.Fits n ∧ (s.json v).follow? path = some (.number (.int n)) := by
  obtain ⟨inner, w, here, found⟩ := opens.part there made
  have same := (takes inner w).mp here
  refine ⟨Width.exists_toInt_iff.mp ⟨w, same⟩, ?_⟩
  rw [found, ← same]
  rfl

/-- Where anything is taken, every integer that fits is taken. -/
theorem Opens.integer_makes {d' : D} {v : s.Val} (there' : d' ≠ maker.absent)
    (made : maker.make i s (whole d') = .ok v) (fits : width.Fits n) :
    ∃ v', maker.make i s (whole d) = .ok v' := by
  obtain ⟨w, same⟩ := Width.exists_toInt_iff.mpr fits
  exact opens.replaced there' made there fun inner => ⟨w, (takes inner w).mpr same⟩

end Parts

end Shape

end AdmissionGuest
