import AdmissionGuest.Channel.Sink
/-!
What writing a document to a sink comes to. How many bytes the sink takes in all is known beforehand
from its limits; interruptions and the size of the pieces do not show.
-/

namespace AdmissionGuest.Sink

/-- How many of the bytes are taken in all. -/
def capacity (s : Sink) (bytes : Bytes) : Nat :=
  if s.step = some 0 then 0 else min (s.room.getD bytes.length) bytes.length

/-- Whether all of the bytes are taken. -/
def Takes (s : Sink) (bytes : Bytes) : Prop := s.capacity bytes = bytes.length

instance (s : Sink) (bytes : Bytes) : Decidable (s.Takes bytes) :=
  inferInstanceAs (Decidable (_ = _))

/-- Whether everything is taken, be it in pieces and after interruptions, and can be flushed. -/
structure Unlimited (s : Sink) : Prop where
  step : s.step ≠ some 0
  room : s.room = none
  flushFailure : s.flushFailure = none

theorem Unlimited.takes {s : Sink} (unlimited : s.Unlimited) (bytes : Bytes) : s.Takes bytes := by
  simp only [Takes, capacity, if_neg unlimited.step, unlimited.room, Option.getD_none,
    Nat.min_self]

theorem capacity_le (s : Sink) (bytes : Bytes) : s.capacity bytes ≤ bytes.length := by
  unfold capacity
  split
  · exact Nat.zero_le _
  · exact Nat.min_le_right _ _

theorem upTo_eq_take (most : Option Nat) (bytes : Bytes) :
    upTo most bytes = bytes.take (most.getD bytes.length) := by
  cases most with
  | none => exact List.take_length.symm
  | some most => rfl

theorem length_accepted (s : Sink) (bytes : Bytes) :
    (s.accepted bytes).length =
      min (min (s.step.getD bytes.length) (s.room.getD bytes.length)) bytes.length := by
  rw [accepted, upTo_eq_take, upTo_eq_take]
  cases s.room <;> simp only [Option.getD_some, Option.getD_none, List.length_take] <;> omega

theorem accepted_eq_take (s : Sink) (bytes : Bytes) :
    s.accepted bytes = bytes.take (s.accepted bytes).length := by
  have prefixed : s.accepted bytes <+: bytes := by
    rw [accepted, upTo_eq_take, upTo_eq_take]
    exact (List.take_prefix _ _).trans (List.take_prefix _ _)
  exact List.prefix_iff_eq_take.mp prefixed

theorem capacity_of_accepted_nil {s : Sink} {bytes : Bytes} (some : bytes ≠ [])
    (nothing : s.accepted bytes = []) : s.capacity bytes = 0 := by
  have count := length_accepted s bytes
  have positive := List.length_pos_iff.mpr some
  rw [nothing, List.length_nil] at count
  unfold capacity
  split
  · rfl
  · next step =>
    cases limit : s.step with
    | none =>
      simp only [limit, Option.getD_none] at count
      omega
    | some most =>
      have least : most ≠ 0 := fun zero => step (by rw [limit, zero])
      simp only [limit, Option.getD_some] at count
      omega

/-- What two sinks have in common that differ only in what was written so far. -/
structure Alike (s t : Sink) : Prop where
  step : t.step = s.step
  failure : t.failure = s.failure
  flushFailure : t.flushFailure = s.flushFailure
  flushes : t.flushes = s.flushes

/-- Everything a single write can do. -/
inductive Wrote (s : Sink) (bytes : Bytes) : Writing → Sink → Prop where
  | interrupted {t : Sink} (alike : s.Alike t) (data : t.data = s.data) (room : t.room = s.room)
      (less : t.interrupts + 1 = s.interrupts) : Wrote s bytes .interrupted t
  | refused {t : Sink} {message : String} (alike : s.Alike t) (data : t.data = s.data)
      (failure : s.failure = some message) (nothing : s.accepted bytes = []) :
      Wrote s bytes (.failed message) t
  | stuck {t : Sink} (alike : s.Alike t) (data : t.data = s.data) (failure : s.failure = none)
      (nothing : s.accepted bytes = []) : Wrote s bytes (.wrote 0) t
  | took {t : Sink} {count : Nat} (alike : s.Alike t) (interrupts : t.interrupts = s.interrupts)
      (data : t.data = s.data ++ bytes.take (count + 1))
      (room : t.room = s.room.map (· - (count + 1)))
      (length : (s.accepted bytes).length = count + 1) : Wrote s bytes (.wrote (count + 1)) t

theorem data_push (s : Sink) (piece : Bytes) :
    ({ s with pieces := piece :: s.pieces } : Sink).data = s.data ++ piece := by
  simp only [data, List.reverse_cons, List.flatten_append, List.flatten_cons, List.flatten_nil,
    List.append_nil]

theorem write_calm {s : Sink} (calm : s.interrupts = 0) (bytes : Bytes) :
    s.write bytes =
      match s.accepted bytes, s.failure with
      | [], some message => (.failed message, { s with writes := s.writes + 1 })
      | piece, _ =>
        (.wrote piece.length,
          { s with
            room := s.room.map (· - piece.length)
            pieces := piece :: s.pieces
            writes := s.writes + 1 }) := by
  cases s
  cases calm
  rfl

theorem write_wrote (s : Sink) (bytes : Bytes) :
    Wrote s bytes (s.write bytes).1 (s.write bytes).2 := by
  cases interrupts : s.interrupts with
  | succ n =>
    simp only [write, interrupts]
    exact .interrupted ⟨rfl, rfl, rfl, rfl⟩ rfl rfl interrupts.symm
  | zero =>
    rw [write_calm interrupts]
    cases taken : s.accepted bytes with
    | nil =>
      cases failure : s.failure with
      | some message => exact .refused ⟨rfl, failure.symm, rfl, rfl⟩ rfl failure taken
      | none =>
        refine .stuck ⟨rfl, failure.symm, rfl, rfl⟩ ?_ failure taken
        exact (data_push s []).trans (List.append_nil _)
    | cons b piece =>
      have length : (s.accepted bytes).length = piece.length + 1 := by rw [taken, List.length_cons]
      have front : bytes.take (piece.length + 1) = b :: piece := by
        rw [← length, ← accepted_eq_take, taken]
      refine .took ⟨rfl, rfl, rfl, rfl⟩ rfl ?_ rfl length
      rw [front]
      exact data_push s (b :: piece)

/-- What a sink does with the whole of the bytes, however often it is interrupted and in whatever
pieces it takes them. -/
structure Pushed (s : Sink) (bytes : Bytes) (result : Except String Unit) (t : Sink) : Prop where
  flushFailure : t.flushFailure = s.flushFailure
  flushes : t.flushes = s.flushes
  data : t.data = s.data ++ bytes.take (s.capacity bytes)
  result : result = if s.Takes bytes then .ok () else .error (s.failure.getD nothingWritten)

theorem pushed_nil (s : Sink) : Pushed s [] (.ok ()) s := by
  have all : s.Takes [] := Nat.le_zero.mp (capacity_le s [])
  refine ⟨rfl, rfl, ?_, (if_pos all).symm⟩
  rw [List.take_nil, List.append_nil]

theorem pushed_nothing {s t : Sink} {bytes : Bytes} (alike : s.Alike t) (data : t.data = s.data)
    (some : bytes ≠ []) (nothing : s.accepted bytes = []) :
    Pushed s bytes (.error (s.failure.getD nothingWritten)) t := by
  have capacity := capacity_of_accepted_nil some nothing
  refine ⟨alike.flushFailure, alike.flushes, ?_, ?_⟩
  · rw [capacity, List.take_zero, List.append_nil, data]
  · have positive := List.length_pos_iff.mpr some
    rw [if_neg]
    unfold Takes
    omega

theorem capacity_of_took {s t : Sink} {bytes : Bytes} {count : Nat} (alike : s.Alike t)
    (room : t.room = s.room.map (· - (count + 1)))
    (length : (s.accepted bytes).length = count + 1) :
    s.capacity bytes = count + 1 + t.capacity (bytes.drop (count + 1)) := by
  rw [length_accepted] at length
  have step : s.step ≠ some 0 := by
    intro zero
    rw [zero, Option.getD_some] at length
    omega
  simp only [capacity, alike.step, if_neg step, room, List.length_drop]
  cases limit : s.room with
  | none =>
    simp only [Option.map_none, Option.getD_none]
    omega
  | some most =>
    rw [limit] at length
    simp only [Option.map_some, Option.getD_some] at length ⊢
    omega

/-- One write, and what comes after it. -/
theorem Pushed.of_took {s t u : Sink} {bytes : Bytes} {count : Nat} {result : Except String Unit}
    (alike : s.Alike t) (data : t.data = s.data ++ bytes.take (count + 1))
    (room : t.room = s.room.map (· - (count + 1)))
    (length : (s.accepted bytes).length = count + 1)
    (pushed : Pushed t (bytes.drop (count + 1)) result u) : Pushed s bytes result u := by
  have capacity := capacity_of_took alike room length
  have within : count + 1 ≤ bytes.length := by
    rw [length_accepted] at length
    omega
  have takes : s.Takes bytes ↔ t.Takes (bytes.drop (count + 1)) := by
    unfold Takes
    rw [capacity, List.length_drop]
    omega
  refine ⟨pushed.flushFailure.trans alike.flushFailure, pushed.flushes.trans alike.flushes, ?_, ?_⟩
  · rw [pushed.data, data, List.append_assoc, capacity, List.take_add (i := count + 1)]
  · simp only [pushed.result, alike.failure, takes]

theorem Pushed.of_interrupted {s t u : Sink} {bytes : Bytes} {result : Except String Unit}
    (alike : s.Alike t) (data : t.data = s.data) (room : t.room = s.room)
    (pushed : Pushed t bytes result u) : Pushed s bytes result u := by
  have capacity : t.capacity bytes = s.capacity bytes := by
    simp only [Sink.capacity, alike.step, room]
  have takes : s.Takes bytes ↔ t.Takes bytes := by
    unfold Takes
    rw [capacity]
  refine ⟨pushed.flushFailure.trans alike.flushFailure, pushed.flushes.trans alike.flushes, ?_, ?_⟩
  · rw [pushed.data, data, capacity]
  · simp only [pushed.result, alike.failure, takes]

/-- The bound on the number of writes is never reached: each takes an interruption or a byte away,
or it is the last one. -/
theorem push_pushed {fuel : Nat} {bytes : Bytes} {s : Sink}
    (enough : s.interrupts + bytes.length ≤ fuel) :
    Pushed s bytes (s.push fuel bytes).1 (s.push fuel bytes).2 := by
  induction fuel generalizing s bytes with
  | zero =>
    obtain rfl : bytes = [] := List.length_eq_zero_iff.mp (by omega)
    exact pushed_nil s
  | succ fuel ih =>
    cases bytes with
    | nil => exact pushed_nil s
    | cons b bytes =>
      have wrote := write_wrote s (b :: bytes)
      rw [push]
      generalize s.write (b :: bytes) = written at wrote
      obtain ⟨writing, t⟩ := written
      cases wrote with
      | interrupted alike data room less =>
        exact .of_interrupted alike data room (ih (by omega))
      | @refused t message alike data failure nothing =>
        have ended := pushed_nothing alike data (List.cons_ne_nil b bytes) nothing
        rwa [failure] at ended
      | stuck alike data failure nothing =>
        have ended := pushed_nothing alike data (List.cons_ne_nil b bytes) nothing
        rwa [failure] at ended
      | took alike interrupts data room length =>
        refine .of_took alike data room length (ih ?_)
        rw [interrupts, List.length_drop]
        simp only [List.length_cons] at enough ⊢
        omega
      · nofun

/-- A sink that takes all of the bytes has them in full when it is flushed, and only its flush can
fail. -/
theorem writeAll_of_takes {s : Sink} {bytes : Bytes} (takes : s.Takes bytes) :
    (s.writeAll bytes).1 = (s.flushFailure.elim (.ok ()) .error) ∧
      (s.writeAll bytes).2.data = s.data ++ bytes ∧
      (s.writeAll bytes).2.flushes = s.flushes + 1 := by
  have pushed : Pushed s bytes _ _ := push_pushed (Nat.le_refl (s.interrupts + bytes.length))
  unfold writeAll
  generalize s.push (s.interrupts + bytes.length) bytes = outcome at pushed
  obtain ⟨result, t⟩ := outcome
  have all : s.capacity bytes = bytes.length := takes
  have flushFailure : t.flushFailure = s.flushFailure := pushed.flushFailure
  have data : t.data = s.data ++ bytes := by
    have taken := pushed.data
    rwa [all, List.take_length] at taken
  obtain rfl := pushed.result.trans (if_pos takes)
  refine ⟨?_, data, congrArg (· + 1) pushed.flushes⟩
  simp only [flush, flushFailure]
  cases s.flushFailure <;> rfl

/-- A sink that does not take all of the bytes has a proper part of them, is not flushed, and fails
as its writes do. -/
theorem writeAll_of_not_takes {s : Sink} {bytes : Bytes} (takes : ¬ s.Takes bytes) :
    (s.writeAll bytes).1 = .error (s.failure.getD nothingWritten) ∧
      (s.writeAll bytes).2.data = s.data ++ bytes.take (s.capacity bytes) ∧
      (s.writeAll bytes).2.flushes = s.flushes := by
  have pushed : Pushed s bytes _ _ := push_pushed (Nat.le_refl (s.interrupts + bytes.length))
  unfold writeAll
  generalize s.push (s.interrupts + bytes.length) bytes = outcome at pushed
  obtain ⟨result, t⟩ := outcome
  obtain rfl := pushed.result.trans (if_neg takes)
  exact ⟨rfl, pushed.data, pushed.flushes⟩

end AdmissionGuest.Sink
