import AdmissionGuest.Channel.Source
import Mathlib.Algebra.GroupWithZero.Nat
import Mathlib.Logic.Function.Iterate
/-!
What reading a stream to its end comes to. Data and interruptions are passed until the stream ends
or fails; how the data is cut shows in the number of reads and nowhere else.
-/

namespace AdmissionGuest

namespace Arrival

/-- Whether the stream goes on after what arrives. -/
def passes : Arrival → Bool
  | data bytes => !bytes.isEmpty
  | interrupt => true
  | failure _ => false

def bytes : Arrival → Bytes
  | data bytes => bytes
  | _ => []

/-- How many reads the data takes, each of which takes as much as its buffer holds. -/
def pieces : Arrival → Nat
  | data bytes => (bytes.length + (chunkSize - 1)) / chunkSize
  | _ => 0

end Arrival

namespace Source

/-- The document that a script brings: its data up to the first end, unless a failure comes
before. -/
def document (arrivals : List Arrival) : Except String Bytes :=
  match arrivals.dropWhile Arrival.passes with
  | .failure message :: _ => .error message
  | _ => .ok ((arrivals.takeWhile Arrival.passes).flatMap Arrival.bytes)

/-- How many reads bring data before the end or a failure. -/
def pieces (arrivals : List Arrival) : Nat :=
  ((arrivals.takeWhile Arrival.passes).map Arrival.pieces).sum

/-- How many reads are interrupted before the end or a failure. -/
def interrupts (arrivals : List Arrival) : Nat :=
  (arrivals.takeWhile Arrival.passes).count .interrupt

/-- What is left of a script after its end or its failure. -/
def left (arrivals : List Arrival) : List Arrival :=
  (arrivals.dropWhile Arrival.passes).tail

/-- Everything a single read can do to a script. -/
inductive Took (arrivals : List Arrival) : Reading → List Arrival → Prop where
  | ended {rest : List Arrival} (found : document arrivals = .ok []) (pieces : pieces arrivals = 0)
      (interrupts : interrupts arrivals = 0) (left : left arrivals = rest) :
      Took arrivals (.data []) rest
  | failed {rest : List Arrival} {message : String} (found : document arrivals = .error message)
      (pieces : pieces arrivals = 0) (interrupts : interrupts arrivals = 0)
      (left : left arrivals = rest) : Took arrivals (.failed message) rest
  | interrupted {rest : List Arrival} (found : document arrivals = document rest)
      (pieces : pieces arrivals = Source.pieces rest)
      (interrupts : interrupts arrivals = Source.interrupts rest + 1)
      (left : left arrivals = Source.left rest)
      (less : rest.length + volume rest < arrivals.length + volume arrivals) :
      Took arrivals .interrupted rest
  | piece {rest : List Arrival} {b : UInt8} {bytes : Bytes}
      (found : document arrivals = (b :: bytes ++ ·) <$> document rest)
      (pieces : pieces arrivals = Source.pieces rest + 1)
      (interrupts : interrupts arrivals = Source.interrupts rest)
      (left : left arrivals = Source.left rest)
      (less : rest.length + volume rest < arrivals.length + volume arrivals) :
      Took arrivals (.data (b :: bytes)) rest

section Data

variable {bytes : Bytes} (some : bytes ≠ []) (rest : List Arrival)

include some

theorem passes_data : (Arrival.data bytes).passes = true := by
  cases bytes with
  | nil => exact absurd rfl some
  | cons b bytes => rfl

theorem document_data : document (.data bytes :: rest) = (bytes ++ ·) <$> document rest := by
  have passes := passes_data some
  simp only [document, List.dropWhile_cons_of_pos passes, List.takeWhile_cons_of_pos passes,
    List.flatMap_cons]
  split <;> rfl

theorem pieces_data :
    pieces (.data bytes :: rest) = (Arrival.data bytes).pieces + pieces rest := by
  simp only [pieces, List.takeWhile_cons_of_pos (passes_data some), List.map_cons, List.sum_cons]

theorem interrupts_data : interrupts (.data bytes :: rest) = interrupts rest := by
  have other : Arrival.data bytes ≠ .interrupt := nofun
  rw [interrupts, List.takeWhile_cons_of_pos (passes_data some), List.count_cons_of_ne other,
    interrupts]

theorem left_data : left (.data bytes :: rest) = left rest := by
  simp only [left, List.dropWhile_cons_of_pos (passes_data some)]

end Data

theorem document_ofBytes (bytes : Bytes) : document (ofBytes bytes).arrivals = .ok bytes := by
  cases bytes with
  | nil => rfl
  | cons b bytes =>
    have alone : document (ofBytes (b :: bytes)).arrivals =
        (b :: bytes ++ ·) <$> document [] := document_data (List.cons_ne_nil b bytes) []
    rw [alone]
    exact congrArg Except.ok (List.append_nil _)

theorem pieces_interrupt (rest : List Arrival) : pieces (.interrupt :: rest) = pieces rest := by
  have passes : Arrival.passes .interrupt = true := rfl
  simp only [pieces, List.takeWhile_cons_of_pos passes, List.map_cons, List.sum_cons,
    Arrival.pieces, Nat.zero_add]

theorem take_took (arrivals : List Arrival) :
    Took arrivals (take chunkSize arrivals).1 (take chunkSize arrivals).2 := by
  match arrivals with
  | [] | .data [] :: rest => exact .ended rfl rfl rfl rfl
  | .failure message :: rest => exact .failed rfl rfl rfl rfl
  | .interrupt :: rest =>
    change Took (.interrupt :: rest) .interrupted rest
    refine .interrupted rfl (pieces_interrupt rest) ?_ rfl ?_
    · rw [interrupts, List.takeWhile_cons_of_pos rfl]
      exact List.count_cons_self
    · simp only [List.length_cons, volume, Arrival.size]
      omega
  | .data (b :: bytes) :: rest =>
    have some : b :: bytes ≠ [] := List.cons_ne_nil b bytes
    cases surplus : (b :: bytes).drop chunkSize with
    | nil =>
      have short := List.drop_eq_nil_iff.mp surplus
      simp only [take, surplus]
      refine .piece (document_data some rest) ?_ (interrupts_data some rest)
        (left_data some rest) ?_
      · rw [pieces_data some, Arrival.pieces]
        simp only [chunkSize, List.length_cons] at short ⊢
        omega
      · simp only [List.length_cons, volume, Arrival.size]
        omega
    | cons c more =>
      have rest_some : c :: more ≠ [] := List.cons_ne_nil c more
      have long : (c :: more).length = (b :: bytes).length - chunkSize := by
        rw [← surplus, List.length_drop]
      have cut : (b :: bytes).take chunkSize ++ c :: more = b :: bytes := by
        rw [← surplus, List.take_append_drop]
      simp only [take, surplus]
      refine .piece ?_ ?_ ?_ ?_ ?_
      · rw [document_data some, document_data rest_some, ← cut]
        cases document rest with
        | error message => rfl
        | ok found => exact congrArg Except.ok (List.append_assoc _ _ _)
      · rw [pieces_data some, pieces_data rest_some, Arrival.pieces, Arrival.pieces, long]
        simp only [chunkSize, List.length_cons] at long ⊢
        omega
      · rw [interrupts_data some, interrupts_data rest_some]
      · rw [left_data some, left_data rest_some]
      · simp only [chunkSize, List.length_cons, volume, Arrival.size] at long ⊢
        omega

/-- The stream after one more read. -/
def next (s : Source) : Source := (s.read chunkSize).2

theorem next_arrivals (s : Source) : s.next.arrivals = (take chunkSize s.arrivals).2 := rfl

theorem reads_iterate (s : Source) (n : Nat) : (next^[n] s).reads = s.reads + n := by
  induction n with
  | zero => rfl
  | succ n ih =>
    rw [Function.iterate_succ_apply']
    exact congrArg (· + 1) ih

theorem largest_iterate (s : Source) (n : Nat) :
    (next^[n + 1] s).largest = max s.largest chunkSize := by
  induction n with
  | zero => rfl
  | succ n ih =>
    rw [Function.iterate_succ_apply']
    change max (next^[n + 1] s).largest chunkSize = _
    rw [ih, Nat.max_assoc, Nat.max_self]

/-- What reading a stream to its end gives and leaves. The number of reads is settled by the script,
and each of them is made with the same buffer. -/
structure Assembles (s : Source) (outcome : Except String (Bytes × Nat) × Source) : Prop where
  result : outcome.1 = (document s.arrivals).map fun bytes => (bytes, pieces s.arrivals)
  stream : outcome.2 = next^[pieces s.arrivals + interrupts s.arrivals + 1] s
  left : outcome.2.arrivals = left s.arrivals

/-- The bound is reached in no script: every read that is followed by another one makes the script
shorter, or leaves it as long with less data. -/
theorem collect_assembles {fuel : Nat} {s : Source} (enough : s.bound ≤ fuel) :
    s.Assembles (collect fuel s) := by
  induction fuel generalizing s with
  | zero => exact absurd enough (Nat.not_succ_le_zero _)
  | succ fuel ih =>
    have later (less : s.next.arrivals.length + volume s.next.arrivals <
        s.arrivals.length + volume s.arrivals) : s.next.Assembles (collect fuel s.next) := by
      apply ih
      unfold bound unread at enough ⊢
      omega
    have took := take_took s.arrivals
    have read : s.read chunkSize = ((take chunkSize s.arrivals).1, s.next) := rfl
    rw [← next_arrivals] at took
    rw [collect, read]
    generalize (take chunkSize s.arrivals).1 = reading at took
    cases took with
    | ended found pieces interrupts left =>
      refine ⟨?_, ?_, left.symm⟩
      · rw [found, pieces]
        rfl
      · rw [pieces, interrupts]
        rfl
    | failed found pieces interrupts left =>
      refine ⟨?_, ?_, left.symm⟩
      · rw [found]
        rfl
      · rw [pieces, interrupts]
        rfl
    | interrupted found pieces interrupts left less =>
      refine ⟨?_, ?_, ?_⟩
      · rw [found, pieces]
        exact (later less).result
      · rw [pieces, interrupts]
        exact (later less).stream
      · rw [left]
        exact (later less).left
    | piece found pieces interrupts left less =>
      refine ⟨?_, ?_, ?_⟩
      · rw [found, pieces]
        refine (congrArg (Except.map _) (later less).result).trans ?_
        cases document s.next.arrivals <;> rfl
      · rw [pieces, interrupts, Nat.add_right_comm _ 1]
        exact (later less).stream
      · rw [left]
        exact (later less).left

theorem readAll_assembles (s : Source) : s.Assembles s.readAll :=
  collect_assembles (Nat.le_refl _)

theorem Assembles.unique {s : Source} {outcome other : Except String (Bytes × Nat) × Source}
    (assembles : s.Assembles outcome) (again : s.Assembles other) : outcome = other :=
  Prod.ext (assembles.result.trans again.result.symm) (assembles.stream.trans again.stream.symm)

/-- Without its interruptions a script brings the same document in the same pieces. -/
theorem uninterrupted (arrivals : List Arrival) :
    document (arrivals.filter (· ≠ .interrupt)) = document arrivals ∧
      pieces (arrivals.filter (· ≠ .interrupt)) = pieces arrivals := by
  induction arrivals with
  | nil => exact ⟨rfl, rfl⟩
  | cons arrival rest ih =>
    obtain ⟨document, pieces⟩ := ih
    cases arrival with
    | data bytes =>
      cases bytes with
      | nil => exact ⟨rfl, rfl⟩
      | cons b bytes =>
        have some : b :: bytes ≠ [] := List.cons_ne_nil b bytes
        have kept : (Arrival.data (b :: bytes) :: rest).filter (· ≠ .interrupt) =
            .data (b :: bytes) :: rest.filter (· ≠ .interrupt) := rfl
        rw [kept, document_data some, document_data some, pieces_data some, pieces_data some,
          document, pieces]
        exact ⟨rfl, rfl⟩
    | interrupt =>
      have dropped : (Arrival.interrupt :: rest).filter (· ≠ .interrupt) =
          rest.filter (· ≠ .interrupt) := rfl
      rw [dropped, document, pieces]
      exact ⟨rfl, (pieces_interrupt rest).symm⟩
    | failure message => exact ⟨rfl, rfl⟩

end Source

end AdmissionGuest
