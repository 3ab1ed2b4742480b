import PageServer.Exchange.Basic

/-! # What an output puts into the sink

A sink stores as much of what it is given as it can take, wherever it gives out and whether or not it
can flush. `Sink.Took` says this of one step of a sink, and composes along a run: it relates what was
stored to everything that was given, not to the part that fitted. The inversion lemmas of `Exchange`
say all that an output does to an exchange.
-/

namespace PageServer

namespace Sink

/-- What a sink that takes `limit` bytes in total keeps of a transcript. -/
def clip (limit : Option Nat) (transcript : Bytes) : Bytes :=
  match limit with
  | none => transcript
  | some n => transcript.take n

/-- The sink stores what it can take of the transcript. -/
def Keeps (sink : Sink) (transcript : Bytes) : Prop :=
  sink.bytes = clip sink.limit transcript

/-- The next sink is the sink after it was given the bytes, behind whatever it was given before. -/
def Took (sink : Sink) (bytes : Bytes) (next : Sink) : Prop :=
  next.limit = sink.limit ∧ ∀ transcript, sink.Keeps transcript → next.Keeps (transcript ++ bytes)

theorem Took.refl (sink : Sink) : sink.Took [] sink :=
  ⟨rfl, fun transcript kept => by rwa [List.append_nil]⟩

theorem Took.trans {sink middle next : Sink} {first second : Bytes} (left : sink.Took first middle)
    (right : middle.Took second next) : sink.Took (first ++ second) next := by
  refine ⟨right.1.trans left.1, fun transcript kept => ?_⟩
  rw [← List.append_assoc]
  exact right.2 _ (left.2 _ kept)

theorem took_store (sink : Sink) (bytes : Bytes) : sink.Took bytes (sink.store bytes) := by
  refine ⟨rfl, fun transcript kept => ?_⟩
  change (sink.store bytes).bytes = clip sink.limit (transcript ++ bytes)
  rw [bytes_store, kept]
  cases bound : sink.limit with
  | none => simp only [clip, fitting, bound]
  | some n =>
    have size : sink.stored.size = min n transcript.length := by
      have length := congrArg List.length kept
      simpa only [Sink.bytes, clip, bound, Array.length_toList, List.length_take] using length
    have room : n - sink.stored.size = n - transcript.length := by omega
    simp only [clip, fitting, bound, List.take_append, room]

/-- A sink that is full keeps nothing of what comes later. -/
theorem took_store_of_full {sink : Sink} {bytes : Bytes} (full : sink.hasRoom bytes = false)
    (more : Bytes) : sink.Took (bytes ++ more) (sink.store bytes) := by
  refine ⟨rfl, fun transcript kept => ?_⟩
  have stored : (sink.store bytes).bytes = clip sink.limit (transcript ++ bytes) :=
    (took_store sink bytes).2 transcript kept
  change (sink.store bytes).bytes = clip sink.limit (transcript ++ (bytes ++ more))
  rw [stored, ← List.append_assoc]
  cases bound : sink.limit with
  | none => simp [hasRoom, bound] at full
  | some n =>
    have size : sink.stored.size ≤ transcript.length := by
      have length := congrArg List.length kept
      simp only [Sink.bytes, clip, bound, Array.length_toList, List.length_take] at length
      omega
    have short : n ≤ (transcript ++ bytes).length := by
      simp only [hasRoom, bound, decide_eq_false_iff_not] at full
      rw [List.length_append]
      omega
    exact (List.take_append_of_le_length short).symm

/-- A write either goes through, or fails on a sink that is full from then on. -/
theorem write_cases (sink : Sink) (bytes : Bytes) :
    (∃ next, write bytes sink = .ok () next ∧ sink.Took bytes next) ∨
    ∃ e next, write bytes sink = .error e next ∧ ∀ more, sink.Took (bytes ++ more) next := by
  unfold write
  split
  · exact .inl ⟨_, rfl, took_store sink bytes⟩
  · next full =>
    exact .inr ⟨_, _, rfl, took_store_of_full (Bool.eq_false_iff.mpr full)⟩

/-- A flush stores nothing, whether or not it fails. -/
theorem flush_cases (sink : Sink) :
    ∃ next, sink.Took [] next ∧ (flush sink = .ok () next ∨ ∃ e, flush sink = .error e next) := by
  refine ⟨{ sink with flushes := sink.flushes + 1 }, Took.refl sink, ?_⟩
  unfold flush
  dsimp only
  split
  · exact .inr ⟨_, rfl⟩
  · exact .inl rfl

end Sink

namespace Exchange

/-- The header block, as long as it is still to be sent. -/
def owed (x : Exchange) : Bytes :=
  match x.phase with
  | .pending => Text.encode x.head.render
  | .sent => []

theorem sendHeader_cases (x : Exchange) :
    (∃ sink, sendHeader x = .ok () { x with phase := .sent, sink } ∧ x.sink.Took x.owed sink) ∨
    ∃ e sink, sendHeader x = .error e { x with phase := .sent, sink } ∧
      ∀ more, x.sink.Took (x.owed ++ more) sink := by
  obtain ⟨sink, head, phase⟩ := x
  cases phase with
  | sent => exact .inl ⟨sink, rfl, Sink.Took.refl sink⟩
  | pending =>
    rcases sink.write_cases (Text.encode head.render) with ⟨next, wrote, took⟩ | ⟨e, next, wrote, took⟩
    · exact .inl ⟨next, by simp only [sendHeader, onSink, wrote], took⟩
    · exact .inr ⟨e, next, by simp only [sendHeader, onSink, wrote], took⟩

/-- A write counts its bytes exactly if it succeeds, and changes nothing else but the sink and the
phase. -/
theorem write_cases (bytes : Bytes) (x : Exchange) :
    ∃ sink, x.sink.Took (x.owed ++ bytes) sink ∧
      (write bytes x =
          .ok () { x with phase := .sent, sink, written := x.written + bytes.length } ∨
        ∃ e, write bytes x = .error e { x with phase := .sent, sink }) := by
  rcases x.sendHeader_cases with ⟨first, sent, header⟩ | ⟨e, first, sent, header⟩
  · rcases first.write_cases bytes with ⟨second, wrote, body⟩ | ⟨e, second, wrote, body⟩
    · obtain ⟨last, flushed, ends⟩ := second.flush_cases
      refine ⟨last, by simpa using (header.trans body).trans flushed, ?_⟩
      rcases ends with ok | ⟨e, failed⟩
      · exact .inl (by
          simp only [write, bind, EStateM.bind, sent, onSink, wrote, ok, countWritten]
          rfl)
      · exact .inr ⟨e, by simp only [write, bind, EStateM.bind, sent, onSink, wrote, failed]⟩
    · refine ⟨second, header.trans (by simpa using body []), .inr ⟨e, ?_⟩⟩
      simp only [write, bind, EStateM.bind, sent, onSink, wrote]
  · exact ⟨first, header bytes, .inr ⟨e, by simp only [write, bind, EStateM.bind, sent]⟩⟩

theorem finish_cases (x : Exchange) :
    ∃ sink, x.sink.Took x.owed sink ∧
      (finish x = .ok () { x with phase := .sent, sink } ∨
        ∃ e, finish x = .error e { x with phase := .sent, sink }) := by
  rcases x.sendHeader_cases with ⟨first, sent, header⟩ | ⟨e, first, sent, header⟩
  · obtain ⟨last, flushed, ends⟩ := first.flush_cases
    refine ⟨last, by simpa using header.trans flushed, ?_⟩
    rcases ends with ok | ⟨e, failed⟩
    · exact .inl (by simp only [finish, bind, EStateM.bind, sent, onSink, ok])
    · exact .inr ⟨e, by simp only [finish, bind, EStateM.bind, sent, onSink, failed]⟩
  · exact ⟨first, by simpa using header [], .inr ⟨e, by simp only [finish, bind, EStateM.bind, sent]⟩⟩

end Exchange

end PageServer
