import Offside.IndentState.Basic
import Offside.Number.LittleEndian

/-!
# The written form of an indentation state

A state is written as a run of four-byte fields, least significant byte first:
the open levels, outermost first, and then the three numbers about the last
lines.  The initial state alone is written as no bytes at all, and no bytes
are read as the initial state.

`encode` is the written form as a list.  `writeTo` writes the same bytes to
the front of a buffer of fixed size and leaves the rest of it alone.
-/

namespace Offside
namespace IndentState

def wordBytes : Nat := LittleEndian.width

/-- Number of fields after the levels. -/
def trailerFields : Nat := 3

def longestForm : Nat := (maxDepth + trailerFields) * wordBytes

/-- The fields of a state, levels first. -/
def fields (s : IndentState) : List UInt32 :=
  s.levels ++ [s.lastWidth.toUInt32, s.blankRun.toUInt32, s.lastColumn.toUInt32]

def encodedLength (s : IndentState) : Nat :=
  if s.isInitial then 0 else (s.depth + trailerFields) * wordBytes

def encode (s : IndentState) : List UInt8 :=
  if s.isInitial then [] else s.fields.flatMap LittleEndian.bytes

/-- A buffer with some bytes written into it from a position on; bytes that
would lie behind its end are dropped. -/
def writeBytes
    {n : Nat}
    (buffer : Vector UInt8 n)
    (position : Nat) :
    List UInt8 → Vector UInt8 n
  | [] => buffer
  | b :: rest => writeBytes (buffer.setIfInBounds position b) (position + 1) rest

/-- A buffer with some fields written into it, one into each whole field between two
positions; fields that find no room there are left out. -/
def writeFields
    {n : Nat}
    (buffer : Vector UInt8 n)
    (position stop : Nat) :
    List UInt32 → Vector UInt8 n
  | [] => buffer
  | w :: rest =>
      if position + wordBytes ≤ stop then
        writeFields (writeBytes buffer position (LittleEndian.bytes w)) (position + wordBytes) stop
          rest
      else
        buffer

/-- Writes the state to the front of a buffer and says how many bytes that took. -/
def writeTo
    (s : IndentState)
    (buffer : Vector UInt8 longestForm) :
    Nat × Vector UInt8 longestForm :=
  if s.encodedLength = 0 then (0, buffer)
  else (s.encodedLength, writeFields buffer 0 s.encodedLength s.fields)

/-- Number of levels in a written form of this many bytes. -/
def depthOfLength (length : Nat) : Except Error (Fin (maxDepth + 1)) :=
  if length % wordBytes ≠ 0 then
    .error (.malformed length .ragged)
  else if length / wordBytes < trailerFields then
    .error (.malformed length .tooShort)
  else if h : length / wordBytes - trailerFields < maxDepth + 1 then
    .ok ⟨length / wordBytes - trailerFields, h⟩
  else
    .error (.malformed length .tooLong)

/-- The row of slots that starts with these widths and is zero after them. -/
def slotsOf (widths : List UInt32) : Vector UInt32 maxDepth :=
  Vector.ofFn fun i => widths[i.val]?.getD 0

/-- The state with this many levels whose fields are given in order; a field
that is missing counts as zero. -/
def ofFields
    (depth : Fin (maxDepth + 1))
    (words : List UInt32) :
    IndentState where
  slots := slotsOf (words.take depth)
  depth := depth
  depth_le := Nat.le_of_lt_succ depth.isLt
  lastWidth := (words[depth.val]?.getD 0).toInt32
  blankRun := (words[depth.val + 1]?.getD 0).toInt32
  lastColumn := (words[depth.val + 2]?.getD 0).toInt32

def decode (bytes : List UInt8) : Except Error IndentState :=
  if bytes.isEmpty then
    .ok initial
  else
    (depthOfLength bytes.length).map fun depth => ofFields depth (LittleEndian.words bytes)

/-- Replaces a state by the one that some bytes spell.  When they spell none,
the state is reset and the error is reported. -/
def reload
    (s : IndentState)
    (bytes : List UInt8) :
    IndentState × Except Error Unit :=
  match decode bytes with
  | .ok t => (t, .ok ())
  | .error e => (s.reset, .error e)

@[simp] theorem decode_nil : decode [] = .ok initial := rfl

theorem fields_length (s : IndentState) : s.fields.length = s.depth + trailerFields := by
  simp [fields, levels_length, trailerFields]

/-- The written form is as long as announced. -/
theorem encode_length (s : IndentState) : s.encode.length = s.encodedLength := by
  unfold encode encodedLength
  split
  next => rfl
  next =>
    rw [LittleEndian.length_flatMap_bytes, fields_length]
    rfl

end IndentState
end Offside
