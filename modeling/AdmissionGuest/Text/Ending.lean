/-!
Texts with an ending, and what stands before it.
-/

namespace AdmissionGuest.Text

/-- What stands before an ending, if the text ends so. The ending is taken off once. -/
def before? (ending text : String) : Option String :=
  if ending.toList <:+ text.toList then
    some (String.ofList (text.toList.take (text.toList.length - ending.toList.length)))
  else none

theorem before?_eq_some_iff {ending text front : String} :
    before? ending text = some front ↔ text = front ++ ending := by
  unfold before?
  constructor
  · intro found
    split at found
    next ends =>
      cases found
      obtain ⟨start, same⟩ := ends
      apply String.toList_injective
      rw [String.toList_append, String.toList_ofList, ← same]
      simp
    next => exact nomatch found
  · rintro rfl
    rw [String.toList_append, if_pos (List.suffix_append _ _), List.length_append,
      Nat.add_sub_cancel, List.take_left, String.ofList_toList]

end AdmissionGuest.Text
