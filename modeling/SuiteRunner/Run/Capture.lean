import SuiteRunner.Text.Utf8

/-!
# Captured output

A stream arrives in chunks, and no more than a fixed number of its bytes is kept. What is
kept is the beginning of the stream, wherever the chunks were cut. It is read to its end all
the same, so that nobody has to wait who writes to it.
-/

namespace SuiteRunner.Run

/-- What a read of a pipe comes to. -/
inductive Arrival where
  | chunk (bytes : ByteArray)
  /-- Nobody writes to the pipe any more. -/
  | ended
  | failed

/-- The bytes of a stream that are kept. -/
structure Capture where
  kept : ByteArray := .empty

namespace Capture

/-- The most bytes that are kept of one stream. -/
def limit : Nat := 4 * 1024 * 1024

def room (capture : Capture) : Nat := limit - capture.kept.size

/-- Keep as much of a chunk as there is room for. -/
def take (capture : Capture) (chunk : ByteArray) : Capture :=
  ⟨capture.kept ++ chunk.extract 0 (min chunk.size capture.room)⟩

/-- Go on reading a pipe until it ends or a read fails. The reading is cut off where nothing more
has arrived. What arrived and was not read is left over. -/
def read (capture : Capture) : List Arrival → Capture × List Arrival
  | [] => (capture, [])
  | .chunk bytes :: pipe => (capture.take bytes).read pipe
  | .ended :: pipe | .failed :: pipe => (capture, pipe)

def text (capture : Capture) : String := Text.decodeLossy capture.kept

end Capture

/-- A stream of a command: what arrived while the command ran and, if the command was stopped,
what arrived after that, when the stream was read once more. -/
structure Stream where
  live : List Arrival := []
  drained : List Arrival := []

def Stream.capture (stream : Stream) : Capture :=
  let (capture, _) := ({} : Capture).read stream.live
  (capture.read stream.drained).1

end SuiteRunner.Run
