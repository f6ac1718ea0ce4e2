import Mathlib.Data.List.Infix
import Mathlib.Data.List.TakeWhile
import AdmissionGuest.Label
/-!
What is left of a full type name in a message. A name is cut where its arguments open. In front of
the cut it is shortened to what follows the last pair of colons; behind it nothing is looked at.
What is left has no pair in front of its arguments, so that it is not shortened again.
-/

namespace AdmissionGuest

/-! The last pair of colons -/

/-- Somewhere two colons stand side by side. -/
def Paired (cs : List Char) : Prop :=
  [':', ':'] <:+: cs

theorem paired_cons_cons {c d : Char} {rest : List Char} :
    Paired (c :: d :: rest) ↔ (c = ':' ∧ d = ':') ∨ Paired (d :: rest) := by
  rw [Paired, List.infix_cons_iff, List.cons_prefix_cons, List.cons_prefix_cons, Paired]
  simp [eq_comm]

theorem not_paired_nil : ¬ Paired [] := by
  simp [Paired]

theorem not_paired_singleton {c : Char} : ¬ Paired [c] := fun paired =>
  absurd paired.length_le (Nat.not_succ_le_self 1)

theorem afterLastPair_eq_none_iff {stem : List Char} :
    afterLastPair stem = none ↔ ¬ Paired stem := by
  induction stem with
  | nil => exact iff_of_true rfl not_paired_nil
  | cons c tail ih =>
    cases tail with
    | nil => exact iff_of_true rfl not_paired_singleton
    | cons d rest =>
      rw [paired_cons_cons, not_or, ← ih, afterLastPair, Option.orElse_eq_orElse,
        Option.orElse_eq_or, Option.or_eq_none_iff]
      by_cases colons : c = ':' ∧ d = ':' <;> simp [colons]

/-- Of all pairs of colons in a stem it is the last one, with no other pair behind it or overlapping
it. -/
theorem afterLastPair_eq_some_iff {stem own : List Char} :
    afterLastPair stem = some own ↔
      ∃ front, stem = front ++ ':' :: ':' :: own ∧ ¬ Paired (':' :: own) := by
  induction stem with
  | nil => simp [afterLastPair]
  | cons c tail ih =>
    cases tail with
    | nil =>
      refine iff_of_false nofun ?_
      rintro ⟨front, whole, -⟩
      have short := congrArg List.length whole
      simp only [List.length_append, List.length_cons, List.length_nil] at short
      omega
    | cons d rest =>
      rw [afterLastPair, Option.orElse_eq_orElse, Option.orElse_eq_or, Option.or_eq_some_iff, ih,
        afterLastPair_eq_none_iff]
      constructor
      · rintro (⟨front, later, last⟩ | ⟨none, here⟩)
        · exact ⟨c :: front, by rw [later, List.cons_append], last⟩
        · split at here
          next colons =>
            obtain ⟨rfl, rfl⟩ := colons
            cases here
            exact ⟨[], rfl, none⟩
          next => cases here
      · rintro ⟨front, whole, last⟩
        -- With nothing in front of it, the last pair is the one at the head.
        cases front with
        | nil =>
          cases whole
          exact .inr ⟨last, if_pos ⟨rfl, rfl⟩⟩
        | cons e front =>
          obtain ⟨rfl, later⟩ := List.cons.inj whole
          exact .inl ⟨front, later, last⟩

/-- What a stem is shortened to: what follows its last pair of colons, or all of it if it has
none. -/
inductive Shortens : List Char → List Char → Prop where
  | whole {stem : List Char} (unpaired : ¬ Paired stem) : Shortens stem stem
  | after {front own : List Char} (last : ¬ Paired (':' :: own)) :
      Shortens (front ++ ':' :: ':' :: own) own

theorem shortens_iff {stem own : List Char} :
    Shortens stem own ↔ (afterLastPair stem).getD stem = own := by
  constructor
  · intro shortens
    cases shortens with
    | whole unpaired => rw [afterLastPair_eq_none_iff.mpr unpaired, Option.getD_none]
    | after last => rw [afterLastPair_eq_some_iff.mpr ⟨_, rfl, last⟩, Option.getD_some]
  · rintro rfl
    cases found : afterLastPair stem with
    | none => exact .whole (afterLastPair_eq_none_iff.mp found)
    | some own =>
      obtain ⟨front, rfl, last⟩ := afterLastPair_eq_some_iff.mp found
      exact .after last

namespace Shortens

variable {stem own : List Char}

theorem suffix (shortens : Shortens stem own) : own <:+ stem := by
  cases shortens with
  | whole => exact List.suffix_rfl
  | @after front => exact ⟨front ++ [':', ':'], by rw [List.append_assoc]; rfl⟩

theorem unpaired (shortens : Shortens stem own) : ¬ Paired own := by
  cases shortens with
  | whole unpaired => exact unpaired
  | after last => exact fun paired => last (List.infix_cons paired)

end Shortens

/-! The cut before the arguments -/

/-- A full name cut where its arguments open. -/
structure Cut (name : String) (stem arguments : List Char) : Prop where
  whole : name.toList = stem ++ arguments
  plain : '<' ∉ stem
  opens : ∀ c ∈ arguments.head?, c = '<'

theorem exists_cut (name : String) : ∃ stem arguments, Cut name stem arguments := by
  refine ⟨name.toList.takeWhile (· != '<'), name.toList.dropWhile (· != '<'), ?_, ?_, ?_⟩
  · exact List.takeWhile_append_dropWhile.symm
  · intro opening
    simpa using List.mem_takeWhile_imp opening
  · intro c first
    have stopped := List.head?_dropWhile_not (· != '<') name.toList
    rw [Option.mem_def.mp first] at stopped
    simpa using stopped

namespace Cut

variable {name : String} {stem own arguments : List Char}

theorem spanned (cut : Cut name stem arguments) :
    name.toList.takeWhile (· != '<') = stem ∧ name.toList.dropWhile (· != '<') = arguments := by
  have inside : ∀ c ∈ stem, (c != '<') = true := fun c here =>
    bne_iff_ne.mpr fun same => cut.plain (same ▸ here)
  rw [cut.whole, List.takeWhile_append_of_pos inside, List.dropWhile_append_of_pos inside]
  cases found : arguments with
  | nil => exact ⟨List.append_nil stem, rfl⟩
  | cons c rest =>
    obtain rfl : c = '<' := cut.opens c (by rw [found]; rfl)
    exact ⟨List.append_nil stem, rfl⟩

/-- A name is shortened in front of the cut, and the cut stays where it is. -/
theorem labelled (cut : Cut name stem arguments) (shortens : Shortens stem own) :
    Cut (labelOf name) own arguments := by
  refine ⟨?_, fun opening => cut.plain (shortens.suffix.subset opening), cut.opens⟩
  obtain ⟨before, behind⟩ := cut.spanned
  rw [← shortens_iff.mp shortens, labelOf, before, behind]
  cases afterLastPair stem with
  | none => exact cut.whole
  | some own => exact String.toList_ofList

theorem unique (cut : Cut name stem arguments) {other : String} (same : Cut other stem arguments) :
    name = other :=
  String.toList_injective (cut.whole.trans same.whole.symm)

end Cut

theorem labelOf_cut (name : String) : ∃ stem own arguments,
    Cut name stem arguments ∧ Shortens stem own ∧ Cut (labelOf name) own arguments := by
  obtain ⟨stem, arguments, cut⟩ := exists_cut name
  have shortens := shortens_iff.mpr (rfl : (afterLastPair stem).getD stem = _)
  exact ⟨stem, _, arguments, cut, shortens, cut.labelled shortens⟩

/-- Pairs that overlap, and a pair among the arguments. -/
example : labelOf "one:::two<three::four>" = "two<three::four>" := by decide

theorem labelOf_suffix (name : String) : (labelOf name).toList <:+ name.toList := by
  obtain ⟨stem, own, arguments, cut, shortens, left⟩ := labelOf_cut name
  rw [cut.whole, left.whole, List.suffix_append_self_iff]
  exact shortens.suffix

theorem labelOf_labelOf (name : String) : labelOf (labelOf name) = labelOf name := by
  obtain ⟨stem, own, arguments, -, shortens, left⟩ := labelOf_cut name
  exact (left.labelled (.whole shortens.unpaired)).unique left

/-! Names with a path -/

/-- A part of a path, or the name at its end. -/
def Bare (part : String) : Prop :=
  ':' ∉ part.toList ∧ '<' ∉ part.toList

instance (part : String) : Decidable (Bare part) :=
  inferInstanceAs (Decidable (_ ∧ _))

/-- The arguments of a type, or none. Anything may stand between their brackets. -/
inductive Arguments : String → Prop where
  | none : Arguments ""
  | list (content : String) : Arguments ("<" ++ content ++ ">")

theorem Arguments.opens {arguments : String} (given : Arguments arguments) :
    ∀ c ∈ arguments.toList.head?, c = '<' := by
  cases given with
  | none => exact nofun
  | list content =>
    intro c first
    rw [String.append_assoc, String.toList_append] at first
    exact (Option.some.inj first).symm

theorem Bare.not_paired {own : String} (bare : Bare own) : ¬ Paired (':' :: own.toList) := by
  intro paired
  cases cs : own.toList with
  | nil => exact not_paired_singleton (cs ▸ paired)
  | cons c rest =>
    rw [cs, paired_cons_cons] at paired
    rcases paired with ⟨-, rfl⟩ | later
    · exact bare.1 (cs ▸ List.mem_cons_self)
    · exact bare.1 (cs ▸ later.mem List.mem_cons_self)

theorem not_mem_intercalate {parts : List String} (bare : ∀ part ∈ parts, Bare part) :
    '<' ∉ ("::".intercalate parts).toList := by
  induction parts with
  | nil => simp
  | cons part parts ih =>
    have first : '<' ∉ part.toList := (bare part List.mem_cons_self).2
    have others := ih fun other here => bare other (List.mem_cons_of_mem _ here)
    cases parts with
    | nil => simpa using first
    | cons next parts =>
      rw [String.intercalate_cons_cons]
      simpa [first] using others

theorem shortens_intercalate (path : List String) {own : String} (bare : Bare own) :
    Shortens ("::".intercalate (path ++ [own])).toList own.toList := by
  by_cases empty : path = []
  · subst empty
    rw [List.nil_append, String.intercalate_singleton]
    exact .whole fun paired => bare.not_paired (List.infix_cons paired)
  · rw [String.intercalate_append_of_ne_nil empty (List.cons_ne_nil _ _),
      String.intercalate_singleton, String.toList_append, String.toList_append, List.append_assoc]
    exact .after bare.not_paired

/-- A name with a path loses the path and keeps its arguments as they are. -/
theorem labelOf_intercalate (path : List String) {own arguments : String}
    (parts : ∀ part ∈ path, Bare part) (bare : Bare own) (given : Arguments arguments) :
    labelOf ("::".intercalate (path ++ [own]) ++ arguments) = own ++ arguments := by
  have all : ∀ part ∈ path ++ [own], Bare part := by
    intro part here
    rcases List.mem_append.mp here with before | last
    · exact parts part before
    · exact List.mem_singleton.mp last ▸ bare
  have cut : Cut ("::".intercalate (path ++ [own]) ++ arguments)
      ("::".intercalate (path ++ [own])).toList arguments.toList :=
    ⟨String.toList_append, not_mem_intercalate all, given.opens⟩
  have left : Cut (own ++ arguments) own.toList arguments.toList :=
    ⟨String.toList_append, bare.2, given.opens⟩
  exact (cut.labelled (shortens_intercalate path bare)).unique left

/-- What a message calls a type. It is an end of the full name, without a pair of colons in front of
its arguments, and its own label. A name with a path loses the path and nothing else. For any other
text too, it is what follows the last pair of colons in front of the first bracket, or all of it. -/
theorem labelOf_exact :
    (∀ name : String, (labelOf name).toList <:+ name.toList ∧
      ¬ Paired ((labelOf name).toList.takeWhile (· != '<'))) ∧
    (∀ (path : List String) (own arguments : String), (∀ part ∈ path, Bare part) → Bare own →
      Arguments arguments →
        labelOf ("::".intercalate (path ++ [own]) ++ arguments) = own ++ arguments) ∧
    (∀ name : String, labelOf (labelOf name) = labelOf name) ∧
    ∀ name : String, ∃ stem own arguments, Cut name stem arguments ∧ Shortens stem own ∧
      (labelOf name).toList = own ++ arguments := by
  refine ⟨fun name => ⟨labelOf_suffix name, ?_⟩, fun path _ _ => labelOf_intercalate path,
    labelOf_labelOf, fun name => ?_⟩
  · obtain ⟨stem, own, arguments, -, shortens, left⟩ := labelOf_cut name
    rw [left.spanned.1]
    exact shortens.unpaired
  · obtain ⟨stem, own, arguments, cut, shortens, left⟩ := labelOf_cut name
    exact ⟨stem, own, arguments, cut, shortens, left.whole⟩

theorem optionalList_labelled :
    labelOf "core::option::Option<alloc::vec::Vec<u8>>" = "Option<alloc::vec::Vec<u8>>" := by
  have parts : ∀ part ∈ ["core", "option"], Bare part := by decide
  have bare : Bare "Option" := by decide
  have given : Arguments "<alloc::vec::Vec<u8>>" := .list "alloc::vec::Vec<u8>"
  have spelled : "::".intercalate (["core", "option"] ++ ["Option"]) ++ "<alloc::vec::Vec<u8>>" =
      "core::option::Option<alloc::vec::Vec<u8>>" := by decide
  rw [← spelled]
  exact labelOf_exact.2.1 ["core", "option"] "Option" _ parts bare given

end AdmissionGuest
