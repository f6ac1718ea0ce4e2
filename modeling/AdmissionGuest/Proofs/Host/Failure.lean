import AdmissionGuest.Capability.Certificate
import AdmissionGuest.Proofs.Host.Replay
import AdmissionGuest.Proofs.Text.Lossy
/-!
The text of a failed call. Whatever bytes a host fails a call with, the call fails as a host's call
and with their text, which keeps all of them that are text. A certificate is shown by the same rule.
-/

namespace AdmissionGuest

variable {η : Type} [Host η]

/-- The host fails the call, and these bytes are its reply. -/
def FailsWith (address : Address) (payload : Bytes) (s : Session η) (reply : Bytes) : Prop :=
  ∃ t u, Host.call address payload (s.record (.callMade address payload.length)) = (false, t) ∧
    (Host.reply : Guest η Bytes).run.run t = (.ok reply, u)

theorem FailsWith.invoke_result {address : Address} {payload reply : Bytes} {s : Session η}
    (fails : FailsWith address payload s reply) :
    ((invoke address payload).run.run s).1 =
      .error (.hostCall address.shown (Utf8.decodeLossy reply)) := by
  obtain ⟨t, u, called, replied⟩ := fails
  rw [invoke_replied called replied]
  rfl

/-- A scripted host fails a call with whatever bytes stand next in its queue. -/
theorem ScriptedHost.failsWith {s : Session ScriptedHost} {reply : Bytes} {later : List Reply}
    (queue : s.host.replies = ⟨false, reply⟩ :: later) (address : Address) (payload : Bytes) :
    FailsWith address payload s reply := by
  obtain ⟨input, ⟨replies, calls, pending⟩, log⟩ := s
  cases queue
  exact ⟨_, _, rfl, Replay.reply_run⟩

/-- A failed call fails with the text of its reply, whatever host it was, and no bytes make it fail
in another way. The text of a certificate follows the same rule; that of a PEM certificate is the
text it was made of. -/
theorem failedReply_shown :
    (∀ (η : Type) [Host η] (address : Address) (payload reply : Bytes) (s : Session η),
      FailsWith address payload s reply →
      ∃ message, ((invoke address payload).run.run s).1 =
          .error (.hostCall address.shown message) ∧
        Utf8.Shows reply message ∧
        ∀ encoding, (Certificate.mk encoding reply).toText = message) ∧
    (∀ c : Certificate, Utf8.Shows c.data c.toText) ∧
    ∀ text, (Certificate.ofPem text).toText = text := by
  refine ⟨?_, ?_, ?_⟩
  · intro η _ address payload reply s fails
    exact ⟨_, fails.invoke_result, Utf8.shows_decodeLossy reply, fun _ => rfl⟩
  · intro c
    exact Utf8.shows_decodeLossy c.data
  · intro text
    exact Utf8.decodeLossy_encode text

/-- A sequence that breaks off in the middle, a surrogate, a character, and a sequence that the end
cuts off. -/
def brokenReply : Bytes :=
  [0x6F, 0xE2, 0x82, 0x6B, 0xED, 0xA0, 0x80, 0xC3, 0xA9, 0xF0, 0x9F, 0x98]

theorem brokenReply_shown :
    FailsWith .verify [] (⟨⟨[], 0, 0⟩, ⟨[⟨false, brokenReply⟩], [], none⟩, []⟩ : Session ScriptedHost)
        brokenReply ∧
      ((invoke .verify []).run.run
          (⟨⟨[], 0, 0⟩, ⟨[⟨false, brokenReply⟩], [], none⟩, []⟩ : Session ScriptedHost)).1 =
        .error (.hostCall "kubewarden/oci/v2/verify"
          "o\uFFFDk\uFFFD\uFFFD\uFFFDé\uFFFD") := by
  have fails := ScriptedHost.failsWith
    (s := ⟨⟨[], 0, 0⟩, ⟨[⟨false, brokenReply⟩], [], none⟩, []⟩) rfl .verify []
  obtain ⟨message, failed, -, same⟩ := failedReply_shown.1 _ _ _ _ _ fails
  have text : message = "o\uFFFDk\uFFFD\uFFFD\uFFFDé\uFFFD" := (same .pem).symm.trans (by decide)
  exact ⟨fails, text ▸ failed⟩

end AdmissionGuest
