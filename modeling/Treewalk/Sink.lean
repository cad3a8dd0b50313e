/-! # Sinks

Where printed text goes, as bytes. A `Sink` has a `Device` behind it, which may refuse bytes or fail
to flush depending on what it has already taken, and remembers all bytes that reached the device. -/

namespace Treewalk

/-- How bytes are taken. Both answers may depend on the bytes taken so far. -/
structure Device where
  /-- For a piece of text that is not empty: nothing if all of it is taken, and otherwise the number
  of bytes of it that are taken before the failure, and the reason. -/
  refuse? : ByteArray → String → Option (Nat × String)
  /-- The reason why flushing fails, if it does. -/
  flush? : ByteArray → Option String

namespace Device

/-- Takes everything. -/
def unlimited : Device := ⟨fun _ _ => none, fun _ => none⟩

/-- Number of line breaks among some bytes. -/
def lineBreaks (bytes : ByteArray) : Nat := bytes.data.count 10

/-- Is closed as soon as it has taken `closedAfter` line breaks, and cannot be flushed with more
than `fullAfter` of them. -/
def limited (closedAfter fullAfter : Option Nat) : Device where
  refuse? bytes _ :=
    match closedAfter with
    | some n => if n ≤ lineBreaks bytes then some (0, "closed") else none
    | none => none
  flush? bytes :=
    match fullAfter with
    | some n => if n < lineBreaks bytes then some "disk full" else none
    | none => none

end Device

/-- A device and the bytes that have reached it. -/
structure Sink where
  device : Device
  bytes : ByteArray

namespace Sink

/-- A sink that nothing has been written to. -/
def ofDevice (device : Device) : Sink := ⟨device, .empty⟩

/-- The text that has reached the device. There is none to show for bytes that stop within a
    character. -/
def written (s : Sink) : String := (String.fromUTF8? s.bytes).getD ""

/-- The sink after it has taken some bytes. -/
def append (s : Sink) (bytes : ByteArray) : Sink := { s with bytes := s.bytes ++ bytes }

/-- Writes a piece of text: the sink afterwards, and the reason if it failed. A piece without text
never fails. -/
def write (s : Sink) (piece : String) : Sink × Option String :=
  if piece = "" then (s, none)
  else
    match s.device.refuse? s.bytes piece with
    | none => (s.append piece.toByteArray, none)
    | some (taken, reason) => (s.append (piece.toByteArray.extract 0 taken), some reason)

/-- Putting no bytes on a sink does not change it. -/
@[simp] theorem append_empty (s : Sink) : s.append .empty = s := by
  rw [append, ByteArray.append_empty]

/-- Bytes are put on a sink one after the other. -/
theorem append_append (s : Sink) (bytes more : ByteArray) :
    (s.append bytes).append more = s.append (bytes ++ more) := by
  rw [append, append, append, ByteArray.append_assoc]

/-- Writing only adds to what has been written: a first part of the piece, and all of it unless it
    fails. -/
theorem exists_write (s : Sink) (piece : String) :
    ∃ taken left, (s.write piece).1 = s.append taken ∧ piece.toByteArray = taken ++ left ∧
      ((s.write piece).2 = none → left = .empty) := by
  unfold write
  split
  · next hempty => exact ⟨.empty, .empty, by simp, by simp [hempty], fun _ => rfl⟩
  · split
    · exact ⟨piece.toByteArray, .empty, rfl, by simp, fun _ => rfl⟩
    · next taken _ _ =>
      refine ⟨piece.toByteArray.extract 0 taken,
        piece.toByteArray.extract taken piece.toByteArray.size, rfl, ?_, by simp⟩
      rw [ByteArray.extract_append_extract, Nat.zero_min, ByteArray.extract_zero_max_size]

/-- Writes a text, then a line break, then flushes, up to the first failure. -/
def writeLine (s : Sink) (text : String) : Sink × Option String :=
  -- The text and the line break are separate pieces: the device may take one and refuse the other.
  match s.write text with
  | (s, some reason) => (s, some reason)
  | (s, none) =>
    match s.write "\n" with
    | (s, some reason) => (s, some reason)
    | (s, none) => (s, s.device.flush? s.bytes)

end Sink

end Treewalk
