import AdmissionGuest.Proofs.Policy.Input
/-!
A missing host answers every call with one text, and its replies share a stream with the requests.
Which of the two a read gives follows from the steps before it: the text if a call was made since
the latest read, and what is left on the stream otherwise. A history lists the steps so far, the
latest first.
-/

namespace AdmissionGuest.Detached

/-- What can be done with a missing host. -/
inductive Step where
  | call (address : Address) (payload : Bytes)
  | read
  | invoke (address : Address) (payload : Bytes)
  deriving DecidableEq

/-- What a step gives. -/
inductive Answer where
  | called (successful : Bool)
  | read (result : Except Error Bytes)
  | invoked (result : Except Error Bytes)

def Step.isCall : Step → Bool
  | call _ _ => true
  | _ => false

def Step.run (step : Step) (s : Session DetachedHost) : Answer × Session DetachedHost :=
  match step with
  | call address payload =>
    let (successful, s) := Host.call address payload s
    (.called successful, s)
  | read =>
    let (result, s) := (Host.reply : Guest DetachedHost Bytes).run.run s
    (.read result, s)
  | invoke address payload =>
    let (result, s) := (AdmissionGuest.invoke address payload).run.run s
    (.invoked result, s)

def after (start : Session DetachedHost) : List Step → Session DetachedHost
  | [] => start
  | step :: past => (step.run (after start past)).2

/-- The calls since the latest read. -/
def calls (past : List Step) : List Step := past.takeWhile Step.isCall

/-- How many reads found no call to answer. -/
def idle : List Step → Nat
  | [] => 0
  | .read :: past => if calls past = [] then idle past + 1 else idle past
  | _ :: past => idle past

/-- What is still to arrive after a history. -/
def unread (input : Source) (past : List Step) : List Arrival :=
  Source.left^[idle past] input.arrivals

/-- What a step gives after a history. -/
def answer (input : Source) (past : List Step) : Step → Answer
  | .call _ _ => .called false
  | .read => .read <|
      if calls past = [] then (Source.document (unread input past)).mapError .stream
      else .ok (Utf8.encode hostUnavailableText)
  | .invoke address _ => .invoked (.error (.hostCall address.shown hostUnavailableText))

/-- How the session reflects a history. -/
structure Reflects (input : Source) (past : List Step) (s : Session DetachedHost) : Prop where
  pending : s.host.pending =
    if calls past = [] then none else some (Utf8.encode hostUnavailableText)
  input : s.input = (fun input => input.readAll.2)^[idle past] input

variable {input : Source} {past : List Step} {s : Session DetachedHost}

theorem arrivals_iterate (input : Source) (n : Nat) :
    ((fun input => input.readAll.2)^[n] input).arrivals = Source.left^[n] input.arrivals := by
  have once : Function.Semiconj Source.arrivals (fun input => input.readAll.2) Source.left :=
    fun input => input.readAll_assembles.left
  exact once.iterate_right n input

theorem Reflects.arrivals (reflects : Reflects input past s) :
    s.input.arrivals = unread input past := by
  rw [reflects.input, arrivals_iterate, unread]

theorem reply_pending {body : Bytes} (pending : s.host.pending = some body) :
    (Host.reply : Guest DetachedHost Bytes).run.run s = (.ok body, { s with host := ⟨none⟩ }) := by
  obtain ⟨input, ⟨_⟩, log⟩ := s
  cases pending
  rfl

theorem reply_idle (pending : s.host.pending = none) :
    (Host.reply : Guest DetachedHost Bytes).run.run s = (readInput : Guest _ _).run.run s := by
  obtain ⟨input, ⟨_⟩, log⟩ := s
  cases pending
  rfl

theorem readInput_input (s : Session DetachedHost) :
    ((readInput : Guest DetachedHost Bytes).run.run s).2.input = s.input.readAll.2 := by
  rw [readInput_run]
  cases s.input.readAll.1 <;> rfl

/-- One step gives the answer that the history asks for, and the session reflects it from then
on. -/
theorem Reflects.step (reflects : Reflects input past s) (step : Step) :
    (step.run s).1 = answer input past step ∧ Reflects input (step :: past) (step.run s).2 := by
  cases step with
  | call address payload => exact ⟨rfl, rfl, reflects.input⟩
  | invoke address payload =>
    obtain ⟨result, host, input⟩ := detached_invoke address payload s
    refine ⟨congrArg Answer.invoked result, ?_, input.trans reflects.input⟩
    exact congrArg DetachedHost.pending host
  | read =>
    have pending := reflects.pending
    by_cases none : calls past = []
    · rw [if_pos none] at pending
      have run : Step.read.run s =
          (.read ((readInput : Guest DetachedHost Bytes).run.run s).1,
            ((readInput : Guest DetachedHost Bytes).run.run s).2) := by
        simp only [Step.run, reply_idle pending]
        rfl
      rw [run]
      refine ⟨?_, ?_, ?_⟩
      · simp only [answer, if_pos none, readInput_document, reflects.arrivals]
      · exact (congrArg DetachedHost.pending (readInput_host s)).trans pending
      · simp only [readInput_input, reflects.input, idle, if_pos none,
          Function.iterate_succ_apply']
    · rw [if_neg none] at pending
      have run : Step.read.run s =
          (.read (.ok (Utf8.encode hostUnavailableText)), { s with host := ⟨Option.none⟩ }) := by
        simp only [Step.run, reply_pending pending]
      rw [run]
      refine ⟨?_, rfl, ?_⟩
      · simp only [answer, if_neg none]
      · simp only [reflects.input, idle, if_neg none]

/-- The session of a host before its first step. -/
def fresh (input : Source) (log : List Event) : Session DetachedHost := ⟨input, {}, log⟩

theorem after_reflects (input : Source) (log : List Event) (past : List Step) :
    Reflects input past (after (fresh input log) past) := by
  induction past with
  | nil => exact ⟨rfl, rfl⟩
  | cons step past ih => exact (ih.step step).2

/-- Every read of the stream counts, so that a stream that was read is not what it was. -/
theorem readAll_ne (input : Source) : input.readAll.2 ≠ input := by
  intro same
  have more := congrArg Source.reads same
  rw [input.readAll_assembles.stream, Source.reads_iterate] at more
  omega

/-- The stream is touched by a read that has no call to answer, and by no other step. -/
theorem Reflects.input_changes_iff (reflects : Reflects input past s) (step : Step) :
    (step.run s).2.input ≠ s.input ↔ step = .read ∧ calls past = [] := by
  have next := (reflects.step step).2.input
  rw [next, reflects.input]
  cases step with
  | call address payload => simp [idle]
  | invoke address payload => simp [idle]
  | read =>
    by_cases none : calls past = []
    · simp only [idle, if_pos none, Function.iterate_succ_apply']
      simpa [none] using readAll_ne _
    · simp [idle, none]

/-- Once the stream has ended nothing is left on it. -/
theorem unread_of_ended (ended : Source.left input.arrivals = []) (read : idle past ≠ 0) :
    unread input past = [] := by
  have nothing (n : Nat) : Source.left^[n] [] = [] := Function.iterate_fixed rfl n
  obtain ⟨n, some⟩ := Nat.exists_eq_succ_of_ne_zero read
  rw [unread, some, Function.iterate_succ_apply, ended, nothing]

/-- Of a stream that brings a content and then ends, the first idle read gives all of the content
and every later one gives nothing. -/
theorem Reflects.read_content (reflects : Reflects input past s) {content : Bytes}
    (brings : Source.document input.arrivals = .ok content)
    (ended : Source.left input.arrivals = []) :
    (Step.read.run s).1 = .read (.ok
      (if calls past ≠ [] then Utf8.encode hostUnavailableText
      else if idle past = 0 then content else [])) := by
  rw [(reflects.step .read).1, answer]
  by_cases none : calls past = []
  · rw [if_pos none, if_neg (not_not_intro none)]
    by_cases first : idle past = 0
    · rw [if_pos first, unread, first]
      exact congrArg (Answer.read ∘ Except.mapError Error.stream) brings
    · rw [if_neg first, unread_of_ended ended first]
      rfl
  · rw [if_neg none, if_pos none]

/-- The text is read exactly if a call was made, unless it is what the stream brings. -/
theorem Reflects.read_text_iff (reflects : Reflects input past s)
    (other : Source.document (unread input past) ≠ .ok (Utf8.encode hostUnavailableText)) :
    (Step.read.run s).1 = .read (.ok (Utf8.encode hostUnavailableText)) ↔ calls past ≠ [] := by
  rw [(reflects.step .read).1, answer]
  by_cases none : calls past = []
  · rw [if_pos none]
    refine ⟨?_, absurd none⟩
    intro same
    cases brings : Source.document (unread input past) with
    | ok content =>
      rw [brings] at same other
      cases same
      exact absurd rfl other
    | error message =>
      rw [brings] at same
      cases same
  · rw [if_neg none]
    exact ⟨fun _ => none, fun _ => rfl⟩

theorem after_invokes (start : Session DetachedHost) (requests : List (Address × Bytes)) :
    (after start (requests.map fun request => .invoke request.1 request.2)).input =
      start.input := by
  induction requests with
  | nil => rfl
  | cons request requests ih =>
    exact (detached_invoke request.1 request.2 _).2.2.trans ih

end AdmissionGuest.Detached
