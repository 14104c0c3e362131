import Mathlib.Data.List.TakeWhile
import SuiteRunner.Run.Capture

/-!
# What is kept of a stream

After any reads of a pipe, what is kept is the beginning of what the pipe has delivered by then, up
to the limit. Every chunk keeps this so, wherever it was cut and whether it is the one in which
the limit falls. So it does not matter in how many chunks the bytes arrived, nor whether they
were read by one call or by one that was cut off and another one behind it.
-/

namespace SuiteRunner.Run

/-! ### What a pipe delivers -/

namespace Arrival

def isChunk : Arrival → Bool
  | chunk _ => true
  | ended | failed => false

/-- The bytes that arrive. -/
def bytes : Arrival → List UInt8
  | chunk bytes => bytes.data.toList
  | ended | failed => []

end Arrival

/-- All bytes that arrive before a pipe ends or fails. -/
def delivered (pipe : List Arrival) : List UInt8 :=
  (pipe.takeWhile Arrival.isChunk).flatMap Arrival.bytes

/-- What is still to be read of a pipe behind its first end or failure. -/
def pastEnd (pipe : List Arrival) : List Arrival := (pipe.dropWhile Arrival.isChunk).tail

namespace Capture

def bytes (capture : Capture) : List UInt8 := capture.kept.data.toList

/-- The capture has the first of the bytes, and all for which there is room. -/
def Keeps (capture : Capture) (arrived : List UInt8) : Prop :=
  capture.bytes = arrived.take limit

variable {capture : Capture} {arrived : List UInt8}

theorem keeps_nothing : Keeps {} [] := rfl

theorem Keeps.length_le (keeps : capture.Keeps arrived) : capture.bytes.length ≤ limit := by
  rw [keeps, List.length_take]
  exact Nat.min_le_left _ _

theorem Keeps.unique {other : Capture} (keeps : capture.Keeps arrived)
    (keeps' : other.Keeps arrived) : capture = other := by
  have same : capture.kept.data.toList = other.kept.data.toList := keeps.trans keeps'.symm
  cases capture
  cases other
  congr
  exact ByteArray.ext (Array.toList_inj.mp same)

/-! ### Reads -/

theorem bytes_take (capture : Capture) (chunk : ByteArray) :
    (capture.take chunk).bytes =
      capture.bytes ++ chunk.data.toList.take (limit - capture.bytes.length) := by
  have fits : (chunk.extract 0 (min chunk.size capture.room)).data.toList =
      chunk.data.toList.take capture.room := by
    rw [ByteArray.data_extract, Array.toList_extract, List.extract_eq_take_drop, List.drop_zero,
      Nat.sub_zero, Nat.min_comm]
    exact List.take_eq_take_min.symm
  rw [take, bytes, ByteArray.data_append, Array.toList_append, fits]
  rfl

/-- A chunk may be kept in full, up to the limit, or not at all. -/
theorem Keeps.take (keeps : capture.Keeps arrived) (chunk : ByteArray) :
    (capture.take chunk).Keeps (arrived ++ chunk.data.toList) := by
  have room : limit - capture.bytes.length = limit - arrived.length := by
    rw [keeps, List.length_take]
    omega
  rw [Keeps, bytes_take, room, keeps, List.take_append]

/-- A call adds what the pipe delivers to it. -/
theorem Keeps.read (keeps : capture.Keeps arrived) (pipe : List Arrival) :
    (capture.read pipe).1.Keeps (arrived ++ delivered pipe) := by
  induction pipe generalizing capture arrived with
  | nil => simpa [Capture.read, delivered] using keeps
  | cons arrival pipe ih =>
    cases arrival with
    | chunk bytes =>
      have more := ih (keeps.take bytes)
      rw [List.append_assoc] at more
      exact more
    | ended | failed => simpa [Capture.read, delivered, Arrival.isChunk] using keeps

/-- A call reads on to the end, whatever it keeps. -/
theorem read_leaves (capture : Capture) (pipe : List Arrival) :
    (capture.read pipe).2 = pastEnd pipe := by
  induction pipe generalizing capture with
  | nil => rfl
  | cons arrival pipe ih =>
    cases arrival with
    | chunk bytes => exact ih (capture.take bytes)
    | ended | failed => rfl

/-- A call that is cut off before the end can be resumed. -/
theorem read_resumed (capture : Capture) (chunks : List ByteArray) (pipe : List Arrival) :
    (capture.read (chunks.map .chunk ++ pipe)) =
      (capture.read (chunks.map .chunk)).1.read pipe := by
  induction chunks generalizing capture with
  | nil => rfl
  | cons chunk chunks ih => exact ih (capture.take chunk)

theorem delivered_chunks (chunks : List ByteArray) (pipe : List Arrival) :
    delivered (chunks.map .chunk ++ pipe) =
      chunks.flatMap (·.data.toList) ++ delivered pipe := by
  induction chunks with
  | nil => rfl
  | cons chunk chunks ih =>
    rw [List.flatMap_cons, List.append_assoc, ← ih]
    rfl

end Capture

theorem Stream.capture_keeps (stream : Stream) :
    stream.capture.Keeps (delivered stream.live ++ delivered stream.drained) :=
  (Capture.keeps_nothing.read stream.live).read stream.drained

/-- Whatever chunks a pipe delivers, a call keeps the first bytes of all that is delivered to it,
no more than the limit, and reads on to the end or a failure. If it is cut off between two reads,
it has kept the first bytes of what was delivered until then, and another call that goes on from
there comes to the same. So what is kept of the stream of a command, stopped or not, is the
beginning of what was delivered, and is the same for all streams that deliver the same bytes. -/
theorem capture_keeps_first_bytes (chunks : List ByteArray) (pipe : List Arrival)
    (stream : Stream) :
    let cutOff := ({} : Capture).read (chunks.map .chunk)
    let whole := ({} : Capture).read (chunks.map .chunk ++ pipe)
    cutOff.1.bytes = (chunks.flatMap (·.data.toList)).take Capture.limit ∧
      cutOff.1.read pipe = whole ∧
      whole.1.bytes =
        (chunks.flatMap (·.data.toList) ++ delivered pipe).take Capture.limit ∧
      whole.1.bytes.length ≤ Capture.limit ∧
      whole.2 = pastEnd pipe ∧
      stream.capture.bytes =
        (delivered stream.live ++ delivered stream.drained).take Capture.limit ∧
      stream.capture.bytes.length ≤ Capture.limit ∧
      ∀ other : Stream, delivered other.live ++ delivered other.drained =
        delivered stream.live ++ delivered stream.drained → other.capture = stream.capture := by
  intro cutOff whole
  -- What is read in two parts is kept as if it were read in one, and each part keeps the first
  -- bytes of what was delivered up to its end.
  have resumed : whole = cutOff.1.read pipe := Capture.read_resumed {} chunks pipe
  have part : cutOff.1.Keeps (chunks.flatMap (·.data.toList)) := by
    have kept := Capture.keeps_nothing.read (chunks.map .chunk)
    have all := Capture.delivered_chunks chunks []
    rw [List.append_nil] at all
    rw [all] at kept
    simpa [delivered] using kept
  have full := part.read pipe
  have kept := stream.capture_keeps
  refine ⟨part, resumed.symm, resumed ▸ full, resumed ▸ full.length_le, ?_, kept, kept.length_le, ?_⟩
  · rw [resumed]
    exact Capture.read_leaves cutOff.1 pipe
  · intro other same
    have kept' := other.capture_keeps
    rw [same] at kept'
    exact kept'.unique kept

/-- Three bytes that arrive before the command is stopped. -/
def early : Stream := { live := [.chunk ⟨#[1, 2]⟩, .chunk ⟨#[3]⟩], drained := [.ended] }

/-- The same bytes, of which all but the first arrive after that. -/
def late : Stream := { live := [.chunk ⟨#[1]⟩], drained := [.chunk ⟨#[2, 3]⟩, .ended] }

theorem late_kept_like_early :
    delivered late.live ++ delivered late.drained =
      delivered early.live ++ delivered early.drained ∧
    late.capture = early.capture ∧ early.capture.bytes = [1, 2, 3] := by
  have same : delivered late.live ++ delivered late.drained =
      delivered early.live ++ delivered early.drained := by decide +kernel
  obtain ⟨-, -, -, -, -, kept, -, alike⟩ :=
    capture_keeps_first_bytes [⟨#[1, 2]⟩] [.chunk ⟨#[3]⟩, .ended] early
  exact ⟨same, alike late same, kept.trans (by decide +kernel)⟩

end SuiteRunner.Run
