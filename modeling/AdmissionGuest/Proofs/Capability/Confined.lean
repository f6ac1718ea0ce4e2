import AdmissionGuest.Host.Detached
import AdmissionGuest.Proofs.Capability.Calls
/-!
What is decided by the host alone. If calling the host neither looks at the input stream nor at the
log, then no capability does, however their calls are combined.
-/

namespace AdmissionGuest

variable {η α β : Type}

/-- An action that comes to the same in two sessions, for its caller and for the host. -/
structure Guest.Agrees (action : Guest η α) (s t : Session η) : Prop where
  result : (action.run.run s).1 = (action.run.run t).1
  host : (action.run.run s).2.host = (action.run.run t).2.host

/-- An action that looks at nothing of a session but its host. -/
def Guest.Confined (action : Guest η α) : Prop :=
  ∀ ⦃s t : Session η⦄, s.host = t.host → action.Agrees s t

/-- A host whose calls look at nothing of a session but the host. -/
def Host.Confined (η : Type) [Host η] : Prop :=
  ∀ address payload, (invoke address payload : Guest η Bytes).Confined

theorem Guest.Agrees.bind {action : Guest η α} {s t : Session η} (first : action.Agrees s t)
    {next : α → Guest η β} (later : ∀ a, (next a).Confined) : (action >>= next).Agrees s t := by
  obtain ⟨result, host⟩ := first
  rcases here : action.run.run s with ⟨outcome, s'⟩
  rcases there : action.run.run t with ⟨outcome', t'⟩
  rw [here, there] at result host
  cases result
  cases outcome with
  | ok a =>
    obtain ⟨result, host⟩ := later a host
    refine ⟨?_, ?_⟩
    · rw [Guest.bind_ok here, Guest.bind_ok there, result]
    · rw [Guest.bind_ok here, Guest.bind_ok there, host]
  | error e =>
    refine ⟨?_, ?_⟩
    · rw [Guest.bind_error here, Guest.bind_error there]
    · rw [Guest.bind_error here, Guest.bind_error there, host]

namespace Guest.Confined

theorem pure (a : α) : Confined (pure a : Guest η α) :=
  fun _ _ host => ⟨rfl, host⟩

theorem ofExcept (x : Except Error α) : Confined (MonadExcept.ofExcept x : Guest η α) := by
  intro s t host
  constructor
  · rw [Guest.ofExcept_run, Guest.ofExcept_run]
  · rw [Guest.ofExcept_run, Guest.ofExcept_run, host]

theorem record (event : Event) : Confined (modify (Session.record event) : Guest η Unit) :=
  fun _ _ host => ⟨rfl, host⟩

theorem log (events : List Event) :
    Confined (modify fun s => events.foldl (fun s event => s.record event) s : Guest η Unit) := by
  have kept (s : Session η) :
      (events.foldl (fun s event => s.record event) s).host = s.host := by
    induction events generalizing s with
    | nil => rfl
    | cons event events ih => exact ih (s.record event)
  exact fun s t host => ⟨rfl, (kept s).trans (host.trans (kept t).symm)⟩

theorem bind {action : Guest η α} (first : action.Confined) {next : α → Guest η β}
    (later : ∀ a, (next a).Confined) : Confined (action >>= next) :=
  fun _ _ host => (first host).bind later

end Guest.Confined

/-! Hosts -/

theorem CallsOnce.confined {action : Guest ScriptedHost α} {address : Address} {payload : Bytes}
    {answer : Bytes → Except Error α} (calls : CallsOnce action address payload answer) :
    action.Confined := by
  intro s t host
  constructor
  · rw [calls.result, calls.result, host]
  · rw [calls.host, calls.host, host]

theorem scripted_confined : Host.Confined ScriptedHost :=
  fun address payload => (invoke_callsOnce address payload).confined

/-- Nobody answers, and the text that says so is read from where the call has put it. The input
stream is left alone. -/
theorem detached_invoke (address : Address) (payload : Bytes) (s : Session DetachedHost) :
    ((invoke address payload).run.run s).1 =
        .error (.hostCall address.shown hostUnavailableText) ∧
      ((invoke address payload).run.run s).2.host = ⟨none⟩ ∧
      ((invoke address payload).run.run s).2.input = s.input := by
  let called : Session DetachedHost :=
    { (s.record (.callMade address payload.length)).record
        (.hostUnavailable address hostUnavailableText) with
      host := ⟨some (Utf8.encode hostUnavailableText)⟩ }
  have replied : (Host.reply : Guest DetachedHost Bytes).run.run called =
      (.ok (Utf8.encode hostUnavailableText), { called with host := ⟨none⟩ }) := rfl
  have run := invoke_replied rfl replied
  rw [Utf8.decodeLossy_encode] at run
  rw [run]
  exact ⟨rfl, rfl, rfl⟩

theorem detached_confined : Host.Confined DetachedHost := by
  intro address payload s t _
  constructor
  · rw [(detached_invoke address payload s).1, (detached_invoke address payload t).1]
  · rw [(detached_invoke address payload s).2.1, (detached_invoke address payload t).2.1]

/-! Capabilities -/

section Capabilities

variable [Host η] (confined : Host.Confined η)

include confined

theorem Capability.send_confined {Request Response : Type} [Named Request] [ToDocument Request]
    (c : Capability Request Response) (request : Request) :
    (c.send request : Guest η Bytes).Confined :=
  (Guest.Confined.ofExcept _).bind fun payload => confined c.address payload

theorem Capability.call_confined {Request Response : Type} [Named Request] [ToDocument Request]
    [Named Response] [OfDocument Response] (c : Capability Request Response) (request : Request) :
    (c.call request : Guest η Response).Confined :=
  (c.send_confined confined request).bind fun _ => .ofExcept _

theorem manifestDigest_confined (image : String) :
    (manifestDigest image : Guest η String).Confined :=
  (Capability.manifestDigest.call_confined confined image).bind fun _ => .pure _

theorem manifest_confined (image : String) :
    (manifest image : Guest η OciManifestResponse).Confined := by
  apply (Capability.ociManifest.send_confined confined image).bind
  intro reply
  apply (Guest.Confined.ofExcept (OciManifestResponse.classifyReply reply)).bind
  intro (response, events)
  apply (Guest.Confined.log events).bind
  intro _
  apply (Guest.Confined.record (.manifestClassified image response.mediaType?)).bind
  exact fun _ => .pure response

end Capabilities

end AdmissionGuest
