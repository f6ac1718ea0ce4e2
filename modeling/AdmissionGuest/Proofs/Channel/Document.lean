import AdmissionGuest.Guest
import AdmissionGuest.Proofs.Channel.Sink
/-!
What becomes of a document that is written. Either every byte of it is taken and the stream is
flushed once, or only a beginning of it is taken and nothing is flushed. Interruptions, and the size
of the pieces that are taken, show in the number of writes and nowhere else.
-/

namespace AdmissionGuest

namespace Sink

/-- The loop that writes all of the bytes, with no bound on its length: an interrupted write is made
again, and after a write that took something the loop goes on with what is left. -/
inductive Pushes : Bytes → Sink → Except String Unit → Sink → Prop where
  | done {s : Sink} : Pushes [] s (.ok ()) s
  | interrupted {b : UInt8} {bytes : Bytes} {s t u : Sink} {result : Except String Unit}
      (wrote : s.write (b :: bytes) = (.interrupted, t))
      (later : Pushes (b :: bytes) t result u) : Pushes (b :: bytes) s result u
  | failed {b : UInt8} {bytes : Bytes} {s t : Sink} {message : String}
      (wrote : s.write (b :: bytes) = (.failed message, t)) :
      Pushes (b :: bytes) s (.error message) t
  | nothing {b : UInt8} {bytes : Bytes} {s t : Sink}
      (wrote : s.write (b :: bytes) = (.wrote 0, t)) :
      Pushes (b :: bytes) s (.error nothingWritten) t
  | took {b : UInt8} {bytes : Bytes} {s t u : Sink} {count : Nat} {result : Except String Unit}
      (wrote : s.write (b :: bytes) = (.wrote (count + 1), t))
      (later : Pushes ((b :: bytes).drop (count + 1)) t result u) : Pushes (b :: bytes) s result u

/-- What is still ahead of the loop: interruptions, and bytes. -/
def ahead (s : Sink) (bytes : Bytes) : Nat := s.interrupts + bytes.length

variable {s t u : Sink} {b : UInt8} {bytes : Bytes} {fuel : Nat} {result : Except String Unit}

theorem wrote_of_write {writing : Writing} (wrote : s.write bytes = (writing, t)) :
    Wrote s bytes writing t := by
  have does := write_wrote s bytes
  rwa [wrote] at does

theorem ahead_interrupted (wrote : s.write bytes = (.interrupted, t)) :
    t.ahead bytes < s.ahead bytes := by
  cases wrote_of_write wrote with
  | interrupted _ _ _ less =>
    unfold ahead
    omega

theorem ahead_took {count : Nat} (wrote : s.write bytes = (.wrote (count + 1), t)) :
    t.ahead (bytes.drop (count + 1)) < s.ahead bytes := by
  cases wrote_of_write wrote with
  | took _ interrupts _ _ length =>
    have within := length_accepted s bytes
    rw [length] at within
    rw [ahead, ahead, List.length_drop, interrupts]
    omega

theorem push_cons (fuel : Nat) (b : UInt8) (bytes : Bytes) (s : Sink) :
    s.push (fuel + 1) (b :: bytes) =
      match s.write (b :: bytes) with
      | (.interrupted, s) => push fuel (b :: bytes) s
      | (.failed message, s) => (.error message, s)
      | (.wrote 0, s) => (.error nothingWritten, s)
      | (.wrote count, s) => push fuel ((b :: bytes).drop count) s := rfl

/-- Every write takes an interruption or a byte away, or is the last one. -/
theorem pushes_push (enough : s.ahead bytes ≤ fuel) :
    Pushes bytes s (s.push fuel bytes).1 (s.push fuel bytes).2 := by
  -- the recursion is on the fuel; `enough` stays true because what is ahead becomes less
  induction fuel generalizing s bytes with
  | zero =>
    unfold ahead at enough
    obtain rfl : bytes = [] := List.length_eq_zero_iff.mp (by omega)
    exact .done
  | succ fuel ih =>
    cases bytes with
    | nil => exact .done
    | cons b bytes =>
      rw [push_cons]
      rcases wrote : s.write (b :: bytes) with ⟨writing, t⟩
      cases writing with
      | interrupted =>
        have less := ahead_interrupted wrote
        exact .interrupted wrote (ih (by omega))
      | failed message => exact .failed wrote
      | wrote count =>
        cases count with
        | zero => exact .nothing wrote
        | succ count =>
          have less := ahead_took wrote
          exact .took wrote (ih (by omega))

theorem ahead_pos (s : Sink) (b : UInt8) (bytes : Bytes) : 0 < s.ahead (b :: bytes) := by
  rw [ahead, List.length_cons]
  omega

theorem Pushes.push_eq (pushes : Pushes bytes s result t) (enough : s.ahead bytes ≤ fuel) :
    s.push fuel bytes = (result, t) := by
  have another {s : Sink} {b : UInt8} {bytes : Bytes} {fuel : Nat}
      (enough : s.ahead (b :: bytes) ≤ fuel) : ∃ more, fuel = more + 1 :=
    Nat.exists_eq_add_one.mpr (Nat.lt_of_lt_of_le (s.ahead_pos b bytes) enough)
  induction pushes generalizing fuel with
  | done => cases fuel <;> rfl
  | interrupted wrote _ ih =>
    obtain ⟨more, rfl⟩ := another enough
    have less := ahead_interrupted wrote
    rw [push_cons, wrote]
    exact ih (by omega)
  | failed wrote | nothing wrote =>
    obtain ⟨more, rfl⟩ := another enough
    simp only [push_cons, wrote]
  | took wrote _ ih =>
    obtain ⟨more, rfl⟩ := another enough
    have less := ahead_took wrote
    rw [push_cons, wrote]
    exact ih (by omega)

/-- The bound on the number of writes does not show: the loop ends by itself, and in one way. -/
theorem pushes_iff (enough : s.ahead bytes ≤ fuel) :
    Pushes bytes s result t ↔ s.push fuel bytes = (result, t) := by
  constructor
  · intro pushes
    exact pushes.push_eq enough
  · intro same
    have pushes := pushes_push enough
    rwa [same] at pushes

theorem writes_write (s : Sink) (bytes : Bytes) : (s.write bytes).2.writes = s.writes + 1 := by
  cases interrupts : s.interrupts with
  | succ n => simp only [write, interrupts]
  | zero =>
    rw [write_calm interrupts]
    split <;> rfl

theorem Pushes.writes_le (pushes : Pushes bytes s result t) :
    t.writes ≤ s.writes + s.ahead bytes := by
  have one {s t : Sink} {bytes : Bytes} {writing : Writing}
      (wrote : s.write bytes = (writing, t)) : t.writes = s.writes + 1 := by
    have count := writes_write s bytes
    rwa [wrote] at count
  induction pushes with
  | done => exact Nat.le_add_right _ _
  | interrupted wrote _ ih =>
    have less := ahead_interrupted wrote
    have count := one wrote
    omega
  | failed wrote | nothing wrote =>
    rw [one wrote]
    exact Nat.add_le_add_left (ahead_pos _ _ _) _
  | took wrote _ ih =>
    have less := ahead_took wrote
    have count := one wrote
    omega

/-- One end is reached by the loop, after at most one write for each interruption and byte. -/
theorem pushes_unique (s : Sink) (bytes : Bytes) :
    ∃ outcome u, u.writes ≤ s.writes + s.ahead bytes ∧
      (∀ result t, Pushes bytes s result t ↔ result = outcome ∧ t = u) ∧
      s.writeAll bytes = match outcome with
        | .ok () => u.flush
        | .error message => (.error message, u) := by
  rcases pushed : s.push (s.ahead bytes) bytes with ⟨outcome, u⟩
  have only (result : Except String Unit) (t : Sink) :
      Pushes bytes s result t ↔ result = outcome ∧ t = u := by
    rw [pushes_iff (Nat.le_refl _), pushed, Prod.mk.injEq, eq_comm, @eq_comm _ u]
  refine ⟨outcome, u, ((only outcome u).mpr ⟨rfl, rfl⟩).writes_le, only, ?_⟩
  rw [ahead] at pushed
  rw [writeAll, pushed]
  cases outcome <;> rfl

theorem writeAll_data (s : Sink) (bytes : Bytes) :
    (s.writeAll bytes).2.data = s.data ++ bytes.take (s.capacity bytes) := by
  by_cases takes : s.Takes bytes
  · have all : s.capacity bytes = bytes.length := takes
    rw [(writeAll_of_takes takes).2.1, all, List.take_length]
  · exact (writeAll_of_not_takes takes).2.1

theorem writeAll_result (s : Sink) (bytes : Bytes) :
    (s.writeAll bytes).1 =
      if s.Takes bytes then s.flushFailure.elim (.ok ()) .error
      else .error (s.failure.getD nothingWritten) := by
  split
  · next takes => exact (writeAll_of_takes takes).1
  · next takes => exact (writeAll_of_not_takes takes).1

theorem take_eq_self_iff_takes (s : Sink) (bytes : Bytes) :
    bytes.take (s.capacity bytes) = bytes ↔ s.Takes bytes := by
  have within := s.capacity_le bytes
  constructor
  · intro whole
    have length := congrArg List.length whole
    rw [List.length_take] at length
    unfold Takes
    omega
  · intro takes
    exact List.take_of_length_le (Nat.le_of_eq takes.symm)

/-- What two sinks share that take the same and fail alike. -/
structure Matches (s t : Sink) (bytes : Bytes) : Prop where
  data : t.data = s.data
  capacity : t.capacity bytes = s.capacity bytes
  failure : t.failure = s.failure
  flushFailure : t.flushFailure = s.flushFailure

theorem Matches.writeAll {s t : Sink} {bytes : Bytes} (same : s.Matches t bytes) :
    (t.writeAll bytes).1 = (s.writeAll bytes).1 ∧
      (t.writeAll bytes).2.data = (s.writeAll bytes).2.data := by
  have takes : t.Takes bytes ↔ s.Takes bytes := by rw [Takes, Takes, same.capacity]
  constructor
  · simp only [writeAll_result, takes, same.failure, same.flushFailure]
  · rw [writeAll_data, writeAll_data, same.data, same.capacity]

theorem matches_interrupts (s : Sink) (n : Nat) (bytes : Bytes) :
    s.Matches { s with interrupts := n } bytes := ⟨rfl, rfl, rfl, rfl⟩

theorem matches_step (s : Sink) (n : Nat) (bytes : Bytes) :
    ({ s with step := none } : Sink).Matches { s with step := some (n + 1) } bytes :=
  ⟨rfl, rfl, rfl, rfl⟩

end Sink

theorem writeDocument_of_encode {α : Type} [Named α] [ToDocument α] {a : α} {document : Bytes}
    (encoded : encode a = .ok document) (output : Sink) :
    (writeDocument a output).1 = (output.writeAll document).1.mapError .stream ∧
      (writeDocument a output).2.1 = (output.writeAll document).2 := by
  rw [writeDocument, encoded]
  dsimp only
  obtain ⟨result, written⟩ := output.writeAll document
  cases result with
  | ok done => exact ⟨rfl, rfl⟩
  | error message => exact ⟨rfl, rfl⟩

/-- What became of a document of which a sink took a part. -/
structure Sink.Received (s : Sink) (document part : Bytes) (result : Except Error Unit) (t : Sink) :
    Prop where
  data : t.data = s.data ++ part
  beginning : part <+: document
  flushes : t.flushes = s.flushes + (if part = document then 1 else 0)
  ok_iff : result = .ok () ↔ part = document ∧ s.flushFailure = none
  short : part ≠ document →
    part.length < document.length ∧ result = .error (.stream (s.failure.getD nothingWritten))
  unflushed : part = document → ∀ message, s.flushFailure = some message →
    result = .error (.stream message)

theorem Sink.received_writeAll (s : Sink) (document : Bytes) :
    s.Received document (document.take (s.capacity document))
      ((s.writeAll document).1.mapError .stream) (s.writeAll document).2 := by
  have whole := s.take_eq_self_iff_takes document
  have beginning : document.take (s.capacity document) <+: document := List.take_prefix _ _
  rw [writeAll_result]
  by_cases takes : s.Takes document
  · rw [if_pos takes]
    refine ⟨s.writeAll_data document, beginning, ?_, ?_, ?_, ?_⟩
    · rw [if_pos (whole.mpr takes)]
      exact (writeAll_of_takes takes).2.2
    · rw [whole]
      cases s.flushFailure with
      | none => exact iff_of_true rfl ⟨takes, rfl⟩
      | some message =>
        refine iff_of_false ?_ ?_
        · rintro ⟨⟩
        · rintro ⟨_, ⟨⟩⟩
    · exact fun part => absurd (whole.mpr takes) part
    · intro _ message failure
      rw [failure]
      rfl
  · rw [if_neg takes]
    have partly := fun all => takes (whole.mp all)
    refine ⟨s.writeAll_data document, beginning, ?_, ?_, ?_, ?_⟩
    · rw [if_neg partly]
      exact (writeAll_of_not_takes takes).2.2
    · refine ⟨fun ok => ?_, fun all => absurd all.1 partly⟩
      cases ok
    · refine fun _ => ⟨?_, rfl⟩
      exact Nat.lt_of_le_of_ne beginning.length_le fun same => partly (beginning.eq_of_length same)
    · exact fun all => absurd all partly

/-- A document that cannot be encoded is not written at all. Of another one the sink receives all of
the bytes, and is flushed, or a proper part of them; only in the first case can the writing succeed.
Interruptions do not show, nor does the size of the pieces. -/
theorem writeDocument_whole_or_failed {α : Type} [Named α] [ToDocument α] (a : α) (s : Sink) :
    match encode a with
    | .error e => writeDocument a s = (.error e, s, [])
    | .ok document =>
      (∃ outcome u, u.writes ≤ s.writes + s.ahead document ∧
        (∀ result t, Sink.Pushes document s result t ↔ result = outcome ∧ t = u) ∧
        s.writeAll document = match outcome with
          | .ok () => u.flush
          | .error message => (.error message, u)) ∧
      ((writeDocument a s).1 = (s.writeAll document).1.mapError .stream ∧
        (writeDocument a s).2.1 = (s.writeAll document).2) ∧
      (∃ part, s.Received document part (writeDocument a s).1 (writeDocument a s).2.1) ∧
      (∀ n, (writeDocument a { s with interrupts := n }).1 = (writeDocument a s).1 ∧
        (writeDocument a { s with interrupts := n }).2.1.data = (writeDocument a s).2.1.data) ∧
      ∀ n, (writeDocument a { s with step := some (n + 1) }).1 =
          (writeDocument a { s with step := none }).1 ∧
        (writeDocument a { s with step := some (n + 1) }).2.1.data =
          (writeDocument a { s with step := none }).2.1.data := by
  cases encoded : encode a with
  | error e => simp only [writeDocument, encoded]
  | ok document =>
    have written (s : Sink) := writeDocument_of_encode encoded s
    simp only [(written _).1, (written _).2]
    refine ⟨s.pushes_unique document, ⟨trivial, trivial⟩, ⟨_, s.received_writeAll document⟩,
      ?_, ?_⟩
    · intro n
      obtain ⟨result, data⟩ := (s.matches_interrupts n document).writeAll
      exact ⟨congrArg _ result, data⟩
    · intro n
      obtain ⟨result, data⟩ := (s.matches_step n document).writeAll
      exact ⟨congrArg _ result, data⟩

/-- Room for exactly the document is enough. -/
example :
    let s : Sink := { interrupts := 2, step := some 3, room := some 5 }
    ((writeDocument "abc" s).1, (writeDocument "abc" s).2.1.flushes) = (.ok (), 1) ∧
      ((writeDocument "abcd" s).1, (writeDocument "abcd" s).2.1.flushes) =
        (.error (.stream Sink.nothingWritten), 0) :=
  ⟨rfl, rfl⟩

end AdmissionGuest
