import Offside.Text.Utf8

/-!
# Where lines start

Whether a byte position of a source is the start of a line can be told from
the bytes around it: it is the start or the end of the source, or it follows a
line feed, or it follows a carriage return that no line feed comes after.
-/

namespace Offside
namespace Layout

/-- Whether a line starts at a byte position of a source. -/
def startsLine
    (source : List Char)
    (offset : Nat) :
    Bool :=
  let bytes := Utf8.bytes source
  if offset = 0 ∨ offset = bytes.length then
    true
  else if bytes.length < offset then
    false
  else if bytes[offset - 1]? = some 0x0A then
    true
  else if bytes[offset - 1]? = some 0x0D then
    decide (bytes[offset]? ≠ some 0x0A)
  else
    false

end Layout
end Offside
