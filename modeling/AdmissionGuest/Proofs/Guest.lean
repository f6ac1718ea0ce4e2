import AdmissionGuest.Host.Basic
/-!
How the actions of a guest run one after the other, and what reading the input and calling the host
come to.
-/

namespace AdmissionGuest

variable {η α β : Type} {s t : Session η}

theorem Guest.bind_ok {x : Guest η α} {a : α} (done : x.run.run s = (.ok a, t))
    (f : α → Guest η β) : (x >>= f).run.run s = (f a).run.run t := by
  simp only [ExceptT.run_bind, StateT.run_bind, done]
  rfl

theorem Guest.bind_error {x : Guest η α} {e : Error} (failed : x.run.run s = (.error e, t))
    (f : α → Guest η β) : (x >>= f).run.run s = (.error e, t) := by
  simp only [ExceptT.run_bind, StateT.run_bind, failed]
  rfl

theorem Guest.ofExcept_run (x : Except Error α) :
    (MonadExcept.ofExcept x : Guest η α).run.run s = (x, s) := by
  cases x with
  | ok a => rfl
  | error e => rfl

def Session.fed (s : Session η) : Session η :=
  { s with input := s.input.readAll.2 }

theorem readInput_run :
    (readInput : Guest η Bytes).run.run s =
      match s.input.readAll.1 with
      | .ok (bytes, reads) => (.ok bytes, s.fed.record (.documentRead bytes.length reads))
      | .error message => (.error (.stream message), s.fed) := by
  change (match s.input.readAll.1 with
    | .ok (bytes, reads) => do
      modify (Session.record (.documentRead bytes.length reads))
      return bytes
    | .error message => throw (Error.stream message) : Guest η Bytes).run.run s.fed = _
  cases s.input.readAll.1 with
  | ok read => rfl
  | error message => rfl

theorem readInput_ok {bytes : Bytes} {reads : Nat} (read : s.input.readAll.1 = .ok (bytes, reads)) :
    (readInput : Guest η Bytes).run.run s =
      (.ok bytes, s.fed.record (.documentRead bytes.length reads)) := by
  rw [readInput_run, read]

theorem readInput_error {message : String} (unread : s.input.readAll.1 = .error message) :
    (readInput : Guest η Bytes).run.run s = (.error (.stream message), s.fed) := by
  rw [readInput_run, unread]

variable [Host η] {address : Address} {payload : Bytes} {u : Session η} {body : Bytes}

/-- A call whose reply can be read. The reply to a failed call is the text of the error, whatever
bytes it consists of. -/
theorem invoke_replied {successful : Bool}
    (called : Host.call address payload (s.record (.callMade address payload.length)) =
      (successful, t))
    (replied : (Host.reply : Guest η Bytes).run.run t = (.ok body, u)) :
    (invoke address payload).run.run s =
      if successful then (.ok body, u.record (.callSucceeded address body.length))
      else
        (.error (.hostCall address.shown (Utf8.decodeLossy body)),
          u.record (.callFailed address (Utf8.decodeLossy body))) := by
  have made :
      (modify (Session.record (.callMade address payload.length)) : Guest η Unit).run.run s =
        (.ok (), s.record (.callMade address payload.length)) := rfl
  have flag : (modifyGet (Host.call address payload) : Guest η Bool).run.run
      (s.record (.callMade address payload.length)) = (.ok successful, t) := by
    change (Except.ok (Host.call address payload _).1, (Host.call address payload _).2) = _
    rw [called]
  rw [invoke, Guest.bind_ok made, Guest.bind_ok flag, Guest.bind_ok replied]
  cases successful with
  | true => rfl
  | false => rfl

end AdmissionGuest
