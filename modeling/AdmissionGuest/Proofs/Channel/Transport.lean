import AdmissionGuest.Proofs.Capability.Calls
import AdmissionGuest.Proofs.Channel.Document
import AdmissionGuest.Proofs.Policy.Input
/-!
A value that was written successfully arrives as it was sent. Neither the pieces in which its
document is taken and delivered show in it, nor the interruptions on either side; and a host that
has the value as a reply in its queue delivers it to the call whose turn it is.
-/

namespace AdmissionGuest

/-- Reads a value whose document is the whole input. -/
def receive {η : Type} : Guest η Value := do
  let document ← readInput
  MonadExcept.ofExcept (decode document)

theorem receive_run {η : Type} {s : Session η} {document : Bytes}
    (arrives : Source.document s.input.arrivals = .ok document) :
    ((receive : Guest η Value).run.run s).1 = decode document := by
  have read : ((readInput : Guest η Bytes).run.run s).1 = .ok document := by
    rw [readInput_document, arrives]
    rfl
  rw [receive, Guest.bind_ok (Prod.ext read rfl), Guest.ofExcept_run]

/-- A sink of which the writing succeeded has taken all of the document. -/
theorem data_of_written {α : Type} [Named α] [ToDocument α] {a : α} {output : Sink}
    (written : (writeDocument a output).1 = .ok ()) :
    ∃ document, encode a = .ok document ∧
      (writeDocument a output).2.1.data = output.data ++ document := by
  cases encoded : encode a with
  | error e =>
    rw [writeDocument, encoded] at written
    cases written
  | ok document =>
    obtain ⟨result, sink⟩ := writeDocument_of_encode encoded output
    have received := output.received_writeAll document
    rw [← result, ← sink] at received
    have whole := (received.ok_iff.mp written).1
    exact ⟨document, rfl, whole ▸ received.data⟩

namespace Replay

theorem queued_append (later past : List Step) :
    queued (later ++ past) = queued past ++ queued later := by
  induction later with
  | nil => exact (List.append_nil _).symm
  | cons step later ih =>
    cases step with
    | queue reply =>
      change queued (later ++ past) ++ [reply] = _ ++ (queued later ++ [reply])
      rw [ih, List.append_assoc]
    | invoke | call | read => exact ih

/-- A reply is the answer to the first call that finds every earlier reply used. -/
theorem next_of_used {earlier later : List Step} {reply : Reply} {host : ScriptedHost}
    (reflects : Reflects (later ++ .queue reply :: earlier) host)
    (turn : used (later ++ .queue reply :: earlier) = (queued earlier).length) (address : Address) :
    host.next address = reply := by
  have replies : host.replies = reply :: queued later := by
    have queue : queued (.queue reply :: earlier) = queued earlier ++ [reply] := rfl
    rw [reflects.replies, turn, queued_append, queue, List.append_assoc, List.drop_left]
    rfl
  rw [ScriptedHost.next, replies]
  rfl

end Replay

/-- A value of integers within the limit of nesting comes out of both channels as it went in. -/
theorem Value.transport_lossless (v : Value) (whole : v.json.Whole)
    (fits : v.json.height ≤ Json.nestingLimit) :
    (∀ output : Sink, (writeDocument v output).1 = .ok () →
      ∃ document, (writeDocument v output).2.1.data = output.data ++ document ∧
        ∀ (η : Type) (s : Session η), Source.document s.input.arrivals = .ok document →
          ((receive : Guest η Value).run.run s).1 = .ok v) ∧
    ∀ (input : Source) (log : List Event) (earlier later : List Replay.Step)
      (request : GetResourceRequest),
      Replay.used (later ++ .queue (.ofValue v) :: earlier) = (Replay.queued earlier).length →
        (((Capability.getResource Value).call request).run.run
          (Replay.after (Replay.fresh input log) (later ++ .queue (.ofValue v) :: earlier))).1 =
            .ok v := by
  have decoded : decode v.json.write = .ok v := by
    rw [decode_write whole fits, Value.ofJson_json]
  constructor
  · intro output written
    obtain ⟨document, encoded, data⟩ := data_of_written written
    obtain rfl : v.json.write = document := Except.ok.inj encoded
    refine ⟨_, data, ?_⟩
    intro η s arrives
    rw [receive_run arrives, decoded]
  · intro input log earlier later request turn
    have reflects := Replay.after_reflects input log (later ++ .queue (.ofValue v) :: earlier)
    have calls := (Capability.getResource Value).call_callsOnce (encode_shaped request)
    rw [calls.result, Replay.next_of_used reflects turn]
    exact decoded

namespace Value

/-- What is hard to write: escapes, a character beyond the basic plane, empty containers, and the
least and the greatest integer. -/
def hardSample : Value where
  json := .object [("", .text "\u0001\"\\/\n\u007F\u00E9😀"),
    ("\n", .list [.list [], .object [], .null, .flag true]),
    ("z", .list [.number (.int (-0x8000000000000000)), .number (.int 0xFFFFFFFFFFFFFFFF)])]
  canonical := by
    refine ⟨?_, trivial, ⟨trivial, ⟨List.Pairwise.nil, trivial⟩, trivial, trivial, trivial⟩,
      ⟨trivial, trivial, trivial⟩, trivial⟩
    unfold Entries.Ascending
    decide

theorem hardSample_whole : hardSample.json.Whole := by
  simp [hardSample, Json.Whole, Json.WholeMembers, Json.WholeItems, Number.Whole]

/-- A sink that is interrupted twice and takes three bytes at a time. -/
def slowOutput : Sink := { interrupts := 2, step := some 3 }

/-- The document of a value in two pieces, with interruptions and with a failure after its end. -/
def inTwo (v : Value) : Source where
  arrivals := [.interrupt, .data (v.json.write.take 7), .interrupt, .data (v.json.write.drop 7),
    .data [], .failure "late"]

theorem hardSample_transported :
    ((receive : Guest ScriptedHost Value).run.run (Replay.fresh hardSample.inTwo [])).1 =
        .ok hardSample ∧
      (((Capability.getResource Value).call ⟨"v1", "Pod", "a", none, false⟩).run.run
        (Replay.after (Replay.fresh hardSample.inTwo [])
          [.call .verify [], .queue ⟨true, [0xFF]⟩, .queue (.ofValue hardSample),
            .queue ⟨false, []⟩])).1 = .ok hardSample := by
  have transported := hardSample.transport_lossless hardSample_whole (by decide)
  obtain ⟨document, data, arrives⟩ := transported.1 slowOutput (by rfl)
  have same : document = hardSample.json.write := data.symm.trans (by rfl)
  constructor
  · exact arrives ScriptedHost _ (by rw [same]; rfl)
  · exact transported.2 hardSample.inTwo [] [.queue ⟨false, []⟩]
      [.call .verify [], .queue ⟨true, [0xFF]⟩] _ (by rfl)

end Value

end AdmissionGuest
