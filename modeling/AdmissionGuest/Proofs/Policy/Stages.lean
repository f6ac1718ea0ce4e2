import AdmissionGuest.Proofs.Policy.Input
/-!
The stages of an action, in their order: the input is read to its end, it is decoded, and only what
was decoded is acted on. Until then the host is as it was.
-/

namespace AdmissionGuest

variable {η α β : Type} {s : Session η}

/-- A session after its input was read. -/
def Session.afterInput (s : Session η) : Session η :=
  ((readInput : Guest η Bytes).run.run s).2

theorem Session.host_afterInput (s : Session η) : s.afterInput.host = s.host :=
  readInput_host s

section Understood

variable [Named α] [OfDocument α]

/-- The whole input is the document of a value. -/
def Session.Brings (s : Session η) (a : α) : Prop :=
  ∃ document, Source.document s.input.arrivals = .ok document ∧ decode document = .ok a

/-- The value whose document the input is, or why there is none. -/
def Session.understood (s : Session η) : Except Error α := do
  let document ← (Source.document s.input.arrivals).mapError .stream
  decode document

theorem Session.understood_document {document : Bytes}
    (arrives : Source.document s.input.arrivals = .ok document) :
    (s.understood : Except Error α) = decode document := by
  rw [understood, arrives]
  rfl

theorem Session.understood_ok_iff {a : α} : s.understood = .ok a ↔ s.Brings a := by
  cases arrives : Source.document s.input.arrivals with
  | ok document =>
    rw [understood_document arrives, Brings, arrives]
    constructor
    · intro decoded
      exact ⟨document, rfl, decoded⟩
    · rintro ⟨_, ⟨⟩, decoded⟩
      exact decoded
  | error message =>
    rw [understood, Brings, arrives]
    constructor
    · intro contrary
      cases contrary
    · rintro ⟨_, ⟨⟩, _⟩

theorem understand_run (f : α → Guest η β) :
    (do
      let document ← readInput
      let a ← MonadExcept.ofExcept (decode document)
      f a : Guest η β).run.run s =
      (MonadExcept.ofExcept s.understood >>= f : Guest η β).run.run s.afterInput := by
  have read := readInput_document s
  cases arrives : Source.document s.input.arrivals with
  | ok document =>
    rw [arrives] at read
    rw [Guest.bind_ok (Prod.ext read rfl), Session.understood_document arrives]
    rfl
  | error message =>
    rw [arrives] at read
    rw [Guest.bind_error (Prod.ext read rfl), Session.understood, arrives]
    rfl

end Understood

namespace Policy

variable [Host η] (policy : Policy)

theorem validation_of_understood {request : ValidationRequest policy.Settings}
    (understood : s.understood = .ok request) :
    policy.validation.run.run s = (policy.validate request).run.run s.afterInput := by
  refine (understand_run policy.validate).trans ?_
  rw [understood]
  rfl

theorem validation_of_not_understood {e : Error}
    (lost : (s.understood : Except Error (ValidationRequest policy.Settings)) = .error e) :
    policy.validation.run.run s = (.error e, s.afterInput) := by
  refine (understand_run policy.validate).trans ?_
  rw [lost]
  rfl

omit [Host η] in
theorem settingsValidation_run :
    policy.settingsValidation.run.run s =
      (s.understood >>= policy.validateSettings, s.afterInput) := by
  refine (understand_run fun settings =>
    MonadExcept.ofExcept (policy.validateSettings settings)).trans ?_
  cases (s.understood : Except Error policy.Settings) with
  | ok settings => exact Guest.ofExcept_run _
  | error e => rfl

theorem respond_validate_host :
    ((policy.respond "validate").run s).2.host =
      (policy.validation.run.run (s.record (.policyStarted "validate"))).2.host := by
  change ((policy.respondTo .validate).run _).2.host = _
  rw [respondTo_host]
  rfl

theorem respond_validateSettings_host :
    ((policy.respond "validate-settings").run s).2.host = s.host := by
  change ((policy.respondTo .validateSettings).run _).2.host = _
  rw [respondTo_host]
  dsimp only
  rw [settingsValidation_run]
  exact Session.host_afterInput _

/-- A request that cannot be understood reaches neither the policy nor the host. -/
theorem respond_validate_host_of_not_brings
    (lost : ¬ ∃ request : ValidationRequest policy.Settings, s.Brings request) :
    ((policy.respond "validate").run s).2.host = s.host := by
  rw [respond_validate_host]
  cases understood : ((s.record (.policyStarted "validate")).understood :
      Except Error (ValidationRequest policy.Settings)) with
  | ok request => exact absurd ⟨request, Session.understood_ok_iff.mp understood⟩ lost
  | error e =>
    rw [policy.validation_of_not_understood understood]
    exact Session.host_afterInput _

theorem respond_unknown_session {action : String} (validate : action ≠ "validate")
    (settings : action ≠ "validate-settings") :
    ((policy.respond action).run s).2 =
      s.record (.actionUnknown ("unknown action: " ++ action)) := by
  rw [respond, ofText_unknown validate settings]
  rfl

end Policy

end AdmissionGuest
