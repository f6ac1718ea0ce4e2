import AdmissionGuest.Host.Scripted
import AdmissionGuest.Proofs.Guest
import AdmissionGuest.Proofs.Text.Utf8
/-!
A scripted host is a queue. What it answers follows from the steps before: which replies were
queued, how many of them calls have used up, and whether the reply to the latest call was read. A
history lists the steps so far, the latest first.
-/

namespace AdmissionGuest.Replay

/-- What can be done with a scripted host. -/
inductive Step where
  | queue (reply : Reply)
  | invoke (address : Address) (payload : Bytes)
  | call (address : Address) (payload : Bytes)
  | read

/-- What a step gives. -/
inductive Answer where
  | queued
  | invoked (result : Except Error Bytes)
  | called (successful : Bool)
  | read (result : Except Error Bytes)

def Step.run (step : Step) (s : Session ScriptedHost) : Answer × Session ScriptedHost :=
  match step with
  | queue reply => (.queued, { s with host := s.host.queue reply })
  | invoke address payload =>
    let (result, s) := (AdmissionGuest.invoke address payload).run.run s
    (.invoked result, s)
  | call address payload =>
    let (successful, s) := Host.call address payload s
    (.called successful, s)
  | read =>
    let (result, s) := (Host.reply : Guest ScriptedHost Bytes).run.run s
    (.read result, s)

def after (start : Session ScriptedHost) : List Step → Session ScriptedHost
  | [] => start
  | step :: past => (step.run (after start past)).2

/-- The replies that were queued, in their order. -/
def queued : List Step → List Reply
  | [] => []
  | .queue reply :: past => queued past ++ [reply]
  | _ :: past => queued past

/-- The calls that were made, in their order. -/
def calls : List Step → List RecordedCall
  | [] => []
  | .invoke address payload :: past | .call address payload :: past =>
    calls past ++ [⟨address, payload⟩]
  | _ :: past => calls past

/-- How many of the replies were used: one for each call that found any left. -/
def used : List Step → Nat
  | [] => 0
  | .invoke _ _ :: past | .call _ _ :: past =>
    if used past < (queued past).length then used past + 1 else used past
  | _ :: past => used past

/-- The reply to a call after a history. -/
def answering (past : List Step) (address : Address) : Reply :=
  (queued past)[used past]?.getD
    ⟨false, Utf8.encode ("no scripted reply for " ++ address.shown)⟩

/-- The body of the reply to the latest call, unless it was read. -/
def unread : List Step → Bytes
  | [] => []
  | .queue _ :: past => unread past
  | .invoke _ _ :: _ | .read :: _ => []
  | .call address _ :: past => (answering past address).body

/-- What a step gives after a history. -/
def answer (past : List Step) : Step → Answer
  | .queue _ => .queued
  | .invoke address _ =>
    .invoked <|
      let reply := answering past address
      if reply.successful then .ok reply.body
      else .error (.hostCall address.shown (Utf8.decodeLossy reply.body))
  | .call address _ => .called (answering past address).successful
  | .read => .read (.ok (unread past))

/-- How the state of the host reflects a history. -/
structure Reflects (past : List Step) (host : ScriptedHost) : Prop where
  calls : host.calls = calls past
  within : used past ≤ (queued past).length
  replies : host.replies = (queued past).drop (used past)
  pending : host.pending.getD [] = unread past

variable {past : List Step} {s : Session ScriptedHost} (address : Address) (payload : Bytes)

theorem reflects_nil : Reflects [] { replies := [] } :=
  ⟨rfl, Nat.le_refl 0, rfl, rfl⟩

theorem Reflects.remaining {host : ScriptedHost} (reflects : Reflects past host) :
    used past + host.remaining = (queued past).length := by
  have within := reflects.within
  rw [ScriptedHost.remaining, reflects.replies, List.length_drop]
  omega

/-- A call takes the oldest reply that is left, and nothing of what was pending stays. -/
theorem Reflects.receive {host : ScriptedHost} (reflects : Reflects past host) :
    host.receive address payload =
      ((answering past address).successful,
        ⟨(queued past).drop (used (.call address payload :: past)),
          Replay.calls (.call address payload :: past), some (answering past address).body⟩) := by
  -- The queue holds what the history has left over, so it is empty exactly if every reply was used.
  cases left : host.replies with
  | nil =>
    have none : (queued past).length ≤ used past := by
      have replies := reflects.replies
      rw [left] at replies
      exact List.drop_eq_nil_iff.mp replies.symm
    have missing : answering past address = Reply.missing address := by
      rw [answering, List.getElem?_eq_none none]
      rfl
    simp only [ScriptedHost.receive, left, missing, used, if_neg (Nat.not_lt.mpr none),
      List.drop_eq_nil_of_le none, reflects.calls, Replay.calls]
  | cons reply rest =>
    have split := reflects.replies
    rw [left] at split
    have more : used past < (queued past).length := by
      have positive := congrArg List.length split
      rw [List.length_drop, List.length_cons] at positive
      omega
    rw [List.drop_eq_getElem_cons more] at split
    obtain ⟨oldest, later⟩ := List.cons.inj split
    have taken : answering past address = reply := by
      rw [answering, List.getElem?_eq_getElem more, oldest]
      rfl
    simp only [ScriptedHost.receive, left, taken, used, if_pos more, later, reflects.calls,
      Replay.calls]

theorem call_run (reflects : Reflects past s.host) :
    Host.call address payload s =
      ((answering past address).successful,
        { s with
          host := ⟨(queued past).drop (used (.call address payload :: past)),
            Replay.calls (.call address payload :: past), some (answering past address).body⟩ }) := by
  change ((s.host.receive address payload).1,
    { s with host := (s.host.receive address payload).2 }) = _
  rw [reflects.receive]

theorem reply_run :
    (Host.reply : Guest ScriptedHost Bytes).run.run s =
      (.ok (s.host.pending.getD []), { s with host := { s.host with pending := none } }) := rfl

/-- Calling and reading at once is one call: what is read is its own reply. -/
theorem invoke_run (reflects : Reflects past s.host) :
    ((invoke address payload).run.run s).1 =
        (if (answering past address).successful then .ok (answering past address).body
        else .error (.hostCall address.shown (Utf8.decodeLossy (answering past address).body))) ∧
      ((invoke address payload).run.run s).2.host =
        ⟨(queued past).drop (used (.call address payload :: past)),
          Replay.calls (.call address payload :: past), none⟩ := by
  have recorded : Reflects past (s.record (.callMade address payload.length)).host := reflects
  rw [invoke_replied (call_run address payload recorded) reply_run]
  cases (answering past address).successful with
  | true => exact ⟨rfl, rfl⟩
  | false => exact ⟨rfl, rfl⟩

theorem used_call_le (within : used past ≤ (queued past).length) :
    used (.call address payload :: past) ≤ (queued past).length := by
  unfold used
  split <;> omega

/-- One step gives the answer that the history asks for, and the host reflects it from then on. -/
theorem Reflects.step (reflects : Reflects past s.host) (step : Step) :
    (step.run s).1 = answer past step ∧ Reflects (step :: past) (step.run s).2.host := by
  cases step with
  | queue reply =>
    refine ⟨rfl, reflects.calls, ?_, ?_, reflects.pending⟩
    · have within := reflects.within
      simp only [used, queued, List.length_append, List.length_singleton]
      omega
    · change s.host.replies ++ [reply] = (queued past ++ [reply]).drop (used past)
      rw [reflects.replies, List.drop_append_of_le_length reflects.within]
  | invoke address payload =>
    obtain ⟨result, host⟩ := invoke_run address payload reflects
    refine ⟨congrArg Answer.invoked result, ?_⟩
    change Reflects _ ((AdmissionGuest.invoke address payload).run.run s).2.host
    rw [host]
    exact ⟨rfl, used_call_le address payload reflects.within, rfl, rfl⟩
  | call address payload =>
    have called := call_run address payload reflects
    simp only [Step.run, called]
    exact ⟨rfl, rfl, used_call_le address payload reflects.within, rfl, rfl⟩
  | read =>
    refine ⟨?_, reflects.calls, reflects.within, reflects.replies, rfl⟩
    exact congrArg (Answer.read ∘ Except.ok) reflects.pending

/-- The session of a host that nothing was queued for yet. -/
def fresh (input : Source) (log : List Event) : Session ScriptedHost :=
  ⟨input, { replies := [] }, log⟩

theorem after_reflects (input : Source) (log : List Event) (past : List Step) :
    Reflects past (after (fresh input log) past).host := by
  induction past with
  | nil => exact reflects_nil
  | cons step past ih => exact (ih.step step).2

/-- Whatever was done before, the next step is answered as a queue answers it. -/
theorem replay_exact (input : Source) (log : List Event) (past : List Step) :
    (∀ step : Step, (step.run (after (fresh input log) past)).1 = answer past step) ∧
    (after (fresh input log) past).host.calls = calls past ∧
    (after (fresh input log) past).host.replies = (queued past).drop (used past) ∧
    used past + (after (fresh input log) past).host.remaining = (queued past).length ∧
    (used past = (queued past).length → ∀ address payload,
      (Step.run (.invoke address payload) (after (fresh input log) past)).1 =
        .invoked (.error (.hostCall address.shown ("no scripted reply for " ++ address.shown)))) := by
  have reflects := after_reflects input log past
  refine ⟨fun step => (reflects.step step).1, reflects.calls, reflects.replies,
    reflects.remaining, ?_⟩
  intro empty address payload
  rw [(reflects.step _).1, answer, answering, List.getElem?_eq_none (Nat.le_of_eq empty.symm)]
  change Answer.invoked (.error (.hostCall address.shown (Utf8.decodeLossy (Utf8.encode _)))) = _
  rw [Utf8.decodeLossy_encode]

/-- The reply to a call that nobody read is not taken for the reply to the next one. -/
example : answer [.queue ⟨true, [2]⟩, .call .verify [], .queue ⟨true, [1]⟩] (.invoke .verify []) =
    .invoked (.ok [2]) := rfl

end AdmissionGuest.Replay
