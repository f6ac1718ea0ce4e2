import AdmissionGuest.Proofs.Admission.Response
import AdmissionGuest.Proofs.Dict
/-!
Verdicts that are built up. Warnings are kept in the order in which they were added, and each audit
annotation has the value that was added last under its name; nothing else changes. What was added
between two warnings, or between two annotations with one name, therefore does not matter.
-/

namespace AdmissionGuest

/-- What can be added to a verdict. -/
inductive Addition where
  | warning (text : String)
  | audit (key value : String)
  deriving DecidableEq

namespace Addition

def applyTo (r : ValidationResponse) : Addition → ValidationResponse
  | warning text => r.warn text
  | audit key value => r.annotate key value

def warning? : Addition → Option String
  | warning text => some text
  | audit _ _ => none

/-- The value that is added under a key. -/
def value? (key : String) : Addition → Option String
  | warning _ => none
  | audit k value => if k = key then some value else none

/-- The warnings among additions, in their order. -/
def warningsOf (additions : List Addition) : List String :=
  additions.filterMap warning?

/-- The values that are added under a key, in their order. -/
def valuesOf (key : String) (additions : List Addition) : List String :=
  additions.filterMap (value? key)

theorem valuesOf_audit (key k value : String) (additions : List Addition) :
    valuesOf key (.audit k value :: additions) =
      if k = key then value :: valuesOf key additions else valuesOf key additions := by
  by_cases here : k = key
  · simp [valuesOf, value?, here]
  · simp [valuesOf, value?, here]

/-- The same additions in another order, but not of the warnings and not of the annotations with one
key. -/
structure Reorders (additions others : List Addition) : Prop where
  warnings : warningsOf additions = warningsOf others
  values : ∀ key, valuesOf key additions = valuesOf key others

end Addition

open Addition

attribute [ext] ValidationResponse

namespace ValidationResponse

def add (r : ValidationResponse) (additions : List Addition) : ValidationResponse :=
  additions.foldl applyTo r

/-- The value of an annotation, if there is one with that key. -/
def auditValue? (r : ValidationResponse) (key : String) : Option String :=
  r.auditAnnotations.bind fun facts => facts.get? key

variable (r : ValidationResponse) (additions : List Addition)

theorem add_cons (a : Addition) : r.add (a :: additions) = (applyTo r a).add additions := rfl

theorem auditValue?_annotate (key value other : String) :
    (r.annotate key value).auditValue? other =
      if key = other then some value else r.auditValue? other := by
  change ((r.auditAnnotations.getD Dict.empty).insert key value).get? other = _
  rw [Dict.get?_insert, auditValue?]
  cases r.auditAnnotations <;> rfl

theorem add_others :
    (r.add additions).accepted = r.accepted ∧ (r.add additions).message = r.message ∧
      (r.add additions).code = r.code ∧ (r.add additions).mutatedObject = r.mutatedObject := by
  induction additions generalizing r with
  | nil => exact ⟨rfl, rfl, rfl, rfl⟩
  | cons a additions ih =>
    rw [add_cons]
    cases a with
    | warning text => exact ih (r.warn text)
    | audit key value => exact ih (r.annotate key value)

theorem add_warnings :
    (r.add additions).warnings =
      if warningsOf additions = [] then r.warnings
      else some (r.warnings.getD [] ++ warningsOf additions) := by
  induction additions generalizing r with
  | nil => rfl
  | cons a additions ih =>
    rw [add_cons, ih]
    cases a with
    | audit key value => rfl
    | warning text =>
      have more : warningsOf (.warning text :: additions) = text :: warningsOf additions := rfl
      rw [more, if_neg (List.cons_ne_nil _ _)]
      change (if _ then some (r.warnings.getD [] ++ [text]) else
        some (r.warnings.getD [] ++ [text] ++ warningsOf additions)) = _
      split
      next none => rw [none]
      next => rw [List.append_assoc, List.singleton_append]

theorem add_auditValue? (key : String) :
    (r.add additions).auditValue? key =
      (valuesOf key additions).getLast?.or (r.auditValue? key) := by
  induction additions generalizing r with
  | nil => rfl
  | cons a additions ih =>
    rw [add_cons, ih]
    cases a with
    | warning text => rfl
    | audit k value =>
      rw [valuesOf_audit, applyTo, auditValue?_annotate]
      split
      next =>
        -- the value added here is the last one unless a later one takes its place
        rw [List.getLast?_cons]
        cases (valuesOf key additions).getLast? <;> rfl
      next => rfl

/-- A part of a verdict that additions of one kind bring about, and that no addition takes away. -/
theorem add_isSome {α : Type} (part : ValidationResponse → Option α) (kind : Addition → Prop)
    (step : ∀ r a, (part (applyTo r a)).isSome = true ↔ (part r).isSome = true ∨ kind a) :
    (part (r.add additions)).isSome = true ↔
      (part r).isSome = true ∨ ∃ a ∈ additions, kind a := by
  induction additions generalizing r with
  | nil => simp [add]
  | cons a additions ih =>
    rw [add_cons, ih, step, or_assoc]
    simp

theorem add_warnings_isSome :
    (r.add additions).warnings.isSome = true ↔
      r.warnings.isSome = true ∨ ∃ text, .warning text ∈ additions := by
  have kept := add_isSome r additions warnings (fun a => ∃ text, a = .warning text) fun r a => by
    cases a <;> simp [applyTo, warn, annotate]
  rw [kept]
  refine or_congr_right ⟨?_, ?_⟩
  · rintro ⟨_, there, text, rfl⟩
    exact ⟨text, there⟩
  · rintro ⟨text, there⟩
    exact ⟨_, there, text, rfl⟩

theorem add_auditAnnotations_isSome :
    (r.add additions).auditAnnotations.isSome = true ↔
      r.auditAnnotations.isSome = true ∨ ∃ key value, .audit key value ∈ additions := by
  have kept := add_isSome r additions auditAnnotations
    (fun a => ∃ key value, a = .audit key value) fun r a => by
      cases a <;> simp [applyTo, warn, annotate]
  rw [kept]
  refine or_congr_right ⟨?_, ?_⟩
  · rintro ⟨_, there, key, value, rfl⟩
    exact ⟨key, value, there⟩
  · rintro ⟨key, value, there⟩
    exact ⟨_, there, key, value, rfl⟩

theorem get?_warnings :
    ((Json.object r.members).get? "warnings").isSome = r.warnings.isSome := by
  rw [← json_eq]
  exact Shape.isSome_get?_json (by decide)
    (.there (.there (.there (.there (.there (.here rfl))))))

theorem get?_auditAnnotations :
    ((Json.object r.members).get? "audit_annotations").isSome = r.auditAnnotations.isSome := by
  rw [← json_eq]
  exact Shape.isSome_get?_json (by decide) (.there (.there (.there (.there (.here rfl)))))

/-- The annotations of a verdict are determined by whether there are any and by their values. -/
theorem annotations_ext {r r' : ValidationResponse}
    (there : r.auditAnnotations.isSome = r'.auditAnnotations.isSome)
    (same : ∀ key, r.auditValue? key = r'.auditValue? key) :
    r.auditAnnotations = r'.auditAnnotations := by
  unfold auditValue? at same
  cases facts : r.auditAnnotations with
  | none =>
    rw [facts] at there
    exact (Option.isNone_iff_eq_none.mp (by simpa using there.symm)).symm
  | some d =>
    rw [facts] at there same
    obtain ⟨d', facts'⟩ := Option.isSome_iff_exists.mp there.symm
    rw [facts'] at same ⊢
    exact congrArg some (Dict.ext_get? same)

end ValidationResponse

namespace Addition.Reorders

variable {additions others : List Addition}

theorem perm (reorders : Reorders additions others) : additions.Perm others := by
  rw [List.perm_iff_count]
  intro a
  cases a with
  | warning text =>
    have counted (additions : List Addition) :
        additions.count (.warning text) = (warningsOf additions).count text := by
      rw [warningsOf, List.count_filterMap, List.count]
      congr 1
      funext a
      cases a <;> simp [warning?]
    rw [counted, counted, reorders.warnings]
  | audit key value =>
    have counted (additions : List Addition) :
        additions.count (.audit key value) = (valuesOf key additions).count value := by
      rw [valuesOf, List.count_filterMap, List.count]
      congr 1
      funext a
      cases a with
      | warning text => simp [value?]
      | audit k v => by_cases here : k = key <;> simp [value?, here]
    rw [counted, counted, reorders.values]

/-- In whatever order additions are made, the verdict is the same. -/
theorem add_eq (reorders : Reorders additions others) (r : ValidationResponse) :
    r.add additions = r.add others := by
  obtain ⟨accepted, message, code, object⟩ := r.add_others additions
  obtain ⟨accepted', message', code', object'⟩ := r.add_others others
  have warnings : (r.add additions).warnings = (r.add others).warnings := by
    rw [r.add_warnings, r.add_warnings, reorders.warnings]
  have facts : (r.add additions).auditAnnotations = (r.add others).auditAnnotations := by
    apply ValidationResponse.annotations_ext
    · rw [Bool.eq_iff_iff, r.add_auditAnnotations_isSome, r.add_auditAnnotations_isSome]
      simp only [reorders.perm.mem_iff]
    · intro key
      rw [r.add_auditValue?, r.add_auditValue?, reorders.values]
  exact ValidationResponse.ext (accepted.trans accepted'.symm) (message.trans message'.symm)
    (code.trans code'.symm) (object.trans object'.symm) facts warnings

end Addition.Reorders

/-- What a verdict says after additions. Its decision, message, code and object are those it started
with; the warnings stand after those it started with, and of the annotations with one key the last
counts. Lists and maps are written if they were there or something was added to them. Only the order
of the warnings, and of the annotations with one key, has a meaning. -/
theorem additions_exact (r : ValidationResponse) (additions : List Addition) :
    ((r.add additions).accepted = r.accepted ∧ (r.add additions).message = r.message ∧
      (r.add additions).code = r.code ∧ (r.add additions).mutatedObject = r.mutatedObject) ∧
    ((r.add additions).warnings =
      if warningsOf additions = [] then r.warnings
      else some (r.warnings.getD [] ++ warningsOf additions)) ∧
    (∀ key, (r.add additions).auditValue? key =
      (valuesOf key additions).getLast?.or (r.auditValue? key)) ∧
    (∃ ms, encode (PolicyResponse.validation (r.add additions)) = .ok (Json.object ms).write ∧
      (((Json.object ms).get? "warnings").isSome = true ↔
        r.warnings.isSome = true ∨ ∃ text, .warning text ∈ additions) ∧
      (((Json.object ms).get? "audit_annotations").isSome = true ↔
        r.auditAnnotations.isSome = true ∨ ∃ key value, .audit key value ∈ additions)) ∧
    ∀ others, Reorders additions others →
      additions.Perm others ∧
        encode (PolicyResponse.validation (r.add additions)) =
          encode (PolicyResponse.validation (r.add others)) := by
  refine ⟨r.add_others additions, r.add_warnings additions, r.add_auditValue? additions, ?_, ?_⟩
  · refine ⟨_, PolicyResponse.encode_members, ?_, ?_⟩
    · exact (Bool.eq_iff_iff.mp (ValidationResponse.get?_warnings _)).trans
        (r.add_warnings_isSome additions)
    · exact (Bool.eq_iff_iff.mp (ValidationResponse.get?_auditAnnotations _)).trans
        (r.add_auditAnnotations_isSome additions)
  · intro others reorders
    refine ⟨reorders.perm, ?_⟩
    rw [reorders.add_eq r]

/-- A verdict that already has a warning and an annotation. -/
def sampleStart : ValidationResponse :=
  { accepted := true, auditAnnotations := some (Dict.ofList [("digest", "unknown")]),
    warnings := some ["deprecated"] }

def sampleAdditions : List Addition :=
  [.warning "slow", .audit "uid" "1", .warning "slow", .audit "digest" "abc",
    .audit "uid" "2"]

def sampleOrder : List Addition :=
  [.audit "uid" "1", .audit "uid" "2", .audit "digest" "abc", .warning "slow",
    .warning "slow"]

theorem sampleOrder_reorders : Reorders sampleAdditions sampleOrder := by
  constructor
  · rfl
  · intro key
    by_cases uid : "uid" = key
    · subst uid
      rfl
    · by_cases digest : "digest" = key
      · subst digest
        rfl
      · simp [sampleAdditions, sampleOrder, valuesOf, List.filterMap_cons, value?, uid, digest]

theorem sampleAdditions_alike :
    Reorders sampleAdditions sampleOrder ∧
      encode (PolicyResponse.validation (sampleStart.add sampleAdditions)) =
        encode (PolicyResponse.validation (sampleStart.add sampleOrder)) ∧
      (sampleStart.add sampleAdditions).warnings = some ["deprecated", "slow", "slow"] ∧
      (sampleStart.add sampleAdditions).auditValue? "uid" = some "2" ∧
      (sampleStart.add sampleAdditions).auditValue? "digest" = some "abc" := by
  obtain ⟨-, warnings, facts, -, alike⟩ := additions_exact sampleStart sampleAdditions
  exact ⟨sampleOrder_reorders, (alike _ sampleOrder_reorders).2, warnings, facts "uid",
    facts "digest"⟩

end AdmissionGuest
